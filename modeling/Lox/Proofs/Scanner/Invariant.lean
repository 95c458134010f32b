import Lox.Proofs.Scanner.History
import Lox.Proofs.Scanner.Places

/-!
# What every scanner keeps

A scanner that has started on a source keeps to it whatever is called and whatever fails.  Its
lexeme ends where it stands, its place exceeds the source by no more than the failures for want
of text, and its line by no more than the line feeds that it has passed.  Its tokens are on
lines that do not decrease, with lexemes from the source.  Neither it nor the cursor that goes
on place by place ever reads before the text.

Main results:

- Theorem {lit}`performAll_goes_on`: later calls only add to what there is.
- Theorem {lit}`performAll_bounds`: the place and the line are in bounds.
- Theorem {lit}`performAll_tokens`: the tokens are pieces of the source, on lines in order.
- Theorem {lit}`performAll_invariant`: all of this, also for the cursor, which never reads
  before the text.
-/

namespace Lox
namespace Scanner

/-- Later calls lead to no earlier place and no earlier line, and leave the tokens that are
there. -/
theorem performAll_goes_on (s : Scanner) (later : List Call) :
    s.current ≤ (s.performAll later).current ∧ s.line ≤ (s.performAll later).line ∧
      s.tokens.toList <+: (s.performAll later).tokens.toList := by
  have hgrows := s.grows_performAll later
  rcases hgrows.tokens with ⟨added, hadded, -⟩
  exact ⟨hgrows.le_current, hgrows.le_line, added, hadded.symm⟩

/-- The place of a scanner on a source is in bounds, and so is its line. -/
theorem performAll_bounds (source : String) (history : List Call) :
    ((ofSource source).performAll history).current ≤
        source.length + (failures (ofSource source) history).count .pastEnd ∧
      1 ≤ ((ofSource source).performAll history).line ∧
      ((ofSource source).performAll history).line ≤
        1 + (source.toList.take
          (min ((ofSource source).performAll history).current source.length)).count '\n' := by
  have hgrows := (ofSource source).grows_performAll history
  have hcurrent := hgrows.current_le
  have hline := hgrows.line_le
  have hsource : (ofSource source).source = source.toList := rfl
  have hplace : (ofSource source).current = 0 := rfl
  have hfirst : (ofSource source).line = 1 := rfl
  rw [hsource, hplace, String.length_toList, Nat.zero_max] at hcurrent
  rw [hsource, hplace, hfirst, lineAt, lineAt, List.take_zero, List.count_nil] at hline
  refine ⟨hcurrent, hgrows.le_line, ?_⟩
  rw [← String.length_toList, ← List.take_eq_take_min]
  omega

/-- The tokens of a scanner on a source are pieces of it, on lines that do not decrease. -/
theorem performAll_tokens (source : String) (history : List Call) :
    Addition source.toList 1 ((ofSource source).performAll history).line
      ((ofSource source).performAll history).tokens.toList := by
  rcases ((ofSource source).grows_performAll history).tokens with ⟨added, hadded, haddition⟩
  have hnone : (ofSource source).tokens.toList = [] := rfl
  rw [hnone, List.nil_append] at hadded
  rw [hadded]
  exact haddition

/-- No step of a scanner is one before the text. -/
theorem seen_ne_beforeText {α : Type} (result : EStateM.Result ScanError Scanner α)
    (next : Cursor) : seen result ≠ .error .beforeText next := by
  cases result <;> simp [seen]

/-- After every history of calls the cursor stands where the scanner does, on places that are
not before the text and exceed it by no more than the failures for want of text, and on a line
that it has passed the line feeds for.  Later calls only go on and add tokens behind those that
are there, whose lexemes are pieces of the source and whose lines do not decrease.  No call
reads before the text. -/
theorem performAll_invariant (source : String) (history : List Call) :
    ∃ (s : Scanner) (k : Cursor), s = (ofSource source).performAll history ∧
      k = (Cursor.ofSource source).performAll Numeral.read? history ∧ k = s.cursor ∧
      0 ≤ k.start ∧ k.start ≤ k.current ∧
      s.current ≤ source.length + (failures (ofSource source) history).count .pastEnd ∧
      1 ≤ s.line ∧
      s.line ≤ 1 + (source.toList.take (min s.current source.length)).count '\n' ∧
      (∀ later, s.current ≤ (s.performAll later).current ∧
        s.line ≤ (s.performAll later).line ∧
        s.tokens.toList <+: (s.performAll later).tokens.toList) ∧
      (∀ token ∈ s.tokens.toList, token.lexeme.toList <:+: source.toList) ∧
      s.tokens.toList.Pairwise (fun a b => a.line ≤ b.line) ∧
      (∀ token ∈ s.tokens.toList, token.line ≤ s.line) ∧
      ∀ c, Cursor.perform Numeral.read? c k = seen (perform c s) ∧
        ∀ next, Cursor.perform Numeral.read? c k ≠ .error .beforeText next := by
  rcases performAll_bounds source history with ⟨hcurrent, hfirst, hlast⟩
  have htokens := performAll_tokens source history
  have hcursor := (ofSource source).performAll_cursor history
  rw [cursor_ofSource] at hcursor
  refine ⟨_, _, rfl, rfl, hcursor, ?_, ?_, hcurrent, hfirst, hlast,
    fun later => performAll_goes_on _ later, htokens.isInfix, htokens.pairwise, ?_, ?_⟩
  · rw [hcursor]
    exact Int.natCast_nonneg _
  · rw [hcursor]
    exact Int.ofNat_le.2 (Nat.le_add_right _ _)
  · intro token hmem
    exact (htokens.bounds token hmem).2
  · intro c
    rw [hcursor, perform_cursor]
    exact ⟨rfl, seen_ne_beforeText _⟩

/-- An advance over a line feed counts no line, so a scanner may be on an earlier line than the
text at its place. -/
example : ((ofSource "\n").performAll [.advance]).line = 1 ∧
    ((ofSource "\n").performAll [.scanToken]).line = 2 := by
  decide +kernel

end Scanner
end Lox
