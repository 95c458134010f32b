import Lox.Scanner.Call
import Lox.Proofs.Scanner.Lines

/-!
# Histories of a scanner

Whatever calls are made on a scanner, and whether they fail or not, the scanner only goes on:
its place and its line never decrease, and tokens are added behind those that are there.
Every place past the end of the source has cost a failure, and every line feed that is counted
has been passed.

Main results:

- Theorem {lit}`Grows.trans`: going on is transitive.
- Theorem {lit}`goes_perform`: a scanner goes on by every call.
- Theorem {lit}`grows_performAll`: it goes on by every history of calls.
-/

namespace Lox
namespace Scanner

/-! ## Going on -/

/-- Tokens that are added between two lines: their lexemes are pieces of the source, and their
lines are in order. -/
structure Addition (source : List Char) (first last : Nat) (added : List Token) : Prop where
  isInfix : ∀ token ∈ added, token.lexeme.toList <:+: source
  bounds : ∀ token ∈ added, first ≤ token.line ∧ token.line ≤ last
  pairwise : added.Pairwise fun a b => a.line ≤ b.line

theorem Addition.nil (source : List Char) (first last : Nat) :
    Addition source first last [] :=
  ⟨by simp, by simp, .nil⟩

/-- Additions on lines that follow each other are one addition. -/
theorem Addition.append {source : List Char} {first middle last : Nat}
    {added more : List Token} (hadded : Addition source first middle added)
    (hmore : Addition source middle last more) (hfirst : first ≤ middle)
    (hlast : middle ≤ last) : Addition source first last (added ++ more) where
  isInfix := List.forall_mem_append.2 ⟨hadded.isInfix, hmore.isInfix⟩
  bounds := by
    rw [List.forall_mem_append]
    constructor
    · intro token hmem
      have hbounds := hadded.bounds token hmem
      omega
    · intro token hmem
      have hbounds := hmore.bounds token hmem
      omega
  pairwise := by
    rw [List.pairwise_append]
    refine ⟨hadded.pairwise, hmore.pairwise, ?_⟩
    intro a ha b hb
    exact Nat.le_trans (hadded.bounds a ha).2 (hmore.bounds b hb).1

/-- A scanner has gone on to the next one, and was out of text the given number of times. -/
structure Grows (misses : Nat) (s next : Scanner) : Prop where
  source_eq : next.source = s.source
  le_current : s.current ≤ next.current
  current_le : next.current ≤ max s.current s.source.length + misses
  le_line : s.line ≤ next.line
  line_le : next.line + lineAt s.source s.current ≤ s.line + lineAt s.source next.current
  tokens : ∃ added, next.tokens.toList = s.tokens.toList ++ added ∧
    Addition s.source s.line next.line added

theorem Grows.trans {misses more : Nat} {s next last : Scanner} (hnext : Grows misses s next)
    (hlast : Grows more next last) : Grows (misses + more) s last where
  source_eq := hlast.source_eq.trans hnext.source_eq
  le_current := Nat.le_trans hnext.le_current hlast.le_current
  current_le := by
    have hle := hnext.current_le
    have hle' := hlast.current_le
    rw [hnext.source_eq] at hle'
    omega
  le_line := Nat.le_trans hnext.le_line hlast.le_line
  line_le := by
    have hle := hnext.line_le
    have hle' := hlast.line_le
    rw [hnext.source_eq] at hle'
    omega
  tokens := by
    rcases hnext.tokens with ⟨added, hadded, haddition⟩
    rcases hlast.tokens with ⟨more, hmore, haddition'⟩
    rw [hnext.source_eq] at haddition'
    refine ⟨added ++ more, ?_, haddition.append haddition' hnext.le_line hlast.le_line⟩
    rw [hmore, hadded, List.append_assoc]

/-- A scanner that has moved without a token has gone on if its place and its line have. -/
theorem Grows.of_move {misses : Nat} {s next : Scanner} (hsource : next.source = s.source)
    (hplace : s.current ≤ next.current)
    (hbound : next.current ≤ max s.current s.source.length + misses)
    (hline : s.line ≤ next.line)
    (hlines : next.line + lineAt s.source s.current ≤ s.line + lineAt s.source next.current)
    (htokens : next.tokens = s.tokens) : Grows misses s next :=
  ⟨hsource, hplace, hbound, hline, hlines, [], by simp [htokens], .nil _ _ _⟩

/-- A scanner that has added a token where it stands has gone on. -/
theorem Grows.of_token {s next : Scanner} {token : Token} (hsource : next.source = s.source)
    (hplace : next.current = s.current) (hline : next.line = s.line)
    (htokens : next.tokens = s.tokens.push token) (hlexeme : token.lexeme.toList <:+: s.source)
    (htoken : token.line = s.line) : Grows 0 s next where
  source_eq := hsource
  le_current := Nat.le_of_eq hplace.symm
  current_le := by omega
  le_line := Nat.le_of_eq hline.symm
  line_le := by rw [hplace, hline]
  tokens := by
    refine ⟨[token], by simp [htokens], ?_, ?_, List.pairwise_singleton _ _⟩
    · simpa using hlexeme
    · simp [htoken, hline]

/-! ## Moves and products -/

theorem Grows.refl (s : Scanner) : Grows 0 s s :=
  .of_move rfl (Nat.le_refl _) (Nat.le_max_left _ _) (Nat.le_refl _) (Nat.le_refl _) rfl

theorem grows_mark (s : Scanner) : Grows 0 s s.mark :=
  .of_move rfl (Nat.le_refl _) (Nat.le_max_left _ _) (Nat.le_refl _) (Nat.le_refl _) rfl

theorem current_consume (s : Scanner) (piece : List Char) :
    (s.consume piece).current = s.current + piece.length :=
  (Nat.add_assoc _ _ _).symm

/-- A piece of what is left takes the scanner on by its length and its line feeds. -/
theorem grows_consume {s : Scanner} {piece : List Char} (hbegins : piece <+: s.rest) :
    Grows 0 s (s.consume piece) := by
  rcases hbegins with ⟨more, hmore⟩
  have hdrop : s.source.drop s.current = piece ++ more := by
    rw [hmore, rest_eq_drop_current]
  have hplace := s.current_consume piece
  have hline : (s.consume piece).line = s.line + piece.count '\n' := rfl
  have hlength := congrArg List.length hdrop
  rw [List.length_drop, List.length_append] at hlength
  refine .of_move rfl ?_ ?_ ?_ ?_ rfl
  · omega
  · omega
  · omega
  · rw [hplace, hline, lineAt_add hdrop]
    omega

/-- A step past the end of the text is a miss. -/
theorem grows_widen (s : Scanner) : Grows (if s.rest = [] then 1 else 0) s s.widen := by
  have hplace : s.widen.current = s.current + 1 := rfl
  have hlength := congrArg List.length s.rest_eq_drop_current
  rw [List.length_drop] at hlength
  refine .of_move rfl ?_ ?_ (Nat.le_refl _) ?_ rfl
  · omega
  · split
    · omega
    · rename_i hrest
      have hpos := List.length_pos_iff.2 hrest
      omega
  · have hmono := lineAt_mono s.source (Nat.le_add_right s.current 1)
    have hline : s.widen.line = s.line := rfl
    rw [hplace, hline]
    omega

/-- A lexeme is a piece of the source. -/
theorem lexeme_isInfix (s : Scanner) : s.lexeme <:+: s.source := by
  rw [lexeme, s.text_eq]
  exact (List.take_prefix _ _).isInfix.trans (List.drop_suffix _ _).isInfix

/-- A token for the lexeme is added where the scanner stands. -/
theorem grows_addToken (s : Scanner) (kind : Token.Kind) (literal : Value) :
    Grows 0 s (s.addToken kind literal) := by
  refine .of_token rfl rfl rfl rfl ?_ rfl
  rw [String.toList_ofList]
  exact s.lexeme_isInfix

theorem grows_addEnd (s : Scanner) : Grows 0 s s.addEnd :=
  .of_token rfl rfl rfl rfl (List.nil_infix) rfl

theorem grows_addFault (s : Scanner) (line : Nat) (cause : Fault.Cause) :
    Grows 0 s (s.addFault line cause) :=
  .of_move rfl (Nat.le_refl _) (Nat.le_max_left _ _) (Nat.le_refl _) (Nat.le_refl _) rfl

/-! ## Steps -/

/-- How often a failure is for want of text. -/
def misses : ScanError → Nat
  | .pastEnd => 1
  | .malformedNumeral _ => 0

/-- A scanner has gone on by a step, whether the step has failed or not. -/
def Goes {α : Type} (s : Scanner) : EStateM.Result ScanError Scanner α → Prop
  | .ok _ next => Grows 0 s next
  | .error error next => Grows (misses error) s next

variable {α : Type}

/-- What goes on from a later scanner goes on from an earlier one. -/
theorem Goes.of_grows {s next : Scanner} {result : EStateM.Result ScanError Scanner α}
    (hnext : Grows 0 s next) (hresult : Goes next result) : Goes s result := by
  cases result with
  | ok answer last => exact hnext.trans hresult
  | error error last =>
      have hlast := hnext.trans hresult
      rwa [Nat.zero_add] at hlast

/-- What a lexeme means is added where the scanner stands, also where it is malformed. -/
theorem goes_emit {shape : Lexeme.Shape} (hbreak : shape ≠ .lineBreak) (line : Nat)
    (s : Scanner) : Goes s (emit shape line s) := by
  cases shape with
  | blank => exact .refl s
  | lineBreak => exact absurd rfl hbreak
  | comment => exact .refl s
  | operator kind => exact grows_addToken s kind .nil
  | string => exact grows_addToken s .string _
  | unterminated => exact grows_addFault s line _
  | number =>
      simp only [emit]
      split
      · exact grows_addToken s .number _
      · exact .refl s
  | word => exact grows_addToken s _ .nil
  | unexpected => exact grows_addFault s s.line _

theorem goes_finish {shape : Lexeme.Shape} (hbreak : shape ≠ .lineBreak) {s : Scanner}
    {tail : List Char} (hbegins : tail <+: s.rest) : Goes s (finish shape tail s) :=
  .of_grows (grows_consume hbegins) (goes_emit hbreak s.line _)

/-- An advance goes one place on, also where it fails. -/
theorem goes_advance (s : Scanner) : Goes s (advance s) := by
  have hwiden := grows_widen s
  unfold advance peek?
  cases hrest : s.rest with
  | nil => simpa [Goes, misses, hrest] using hwiden
  | cons c more => simpa [Goes, hrest] using hwiden

theorem goes_accept (s : Scanner) (expected : Char) : Goes s (accept expected s) := by
  have hwiden := grows_widen s
  unfold accept peek?
  split
  · rename_i hnext
    rcases List.head?_eq_some_iff.1 hnext with ⟨more, hrest⟩
    simpa [Goes, hrest] using hwiden
  · exact .refl s

theorem goes_skipTo (s : Scanner) (expected : Char) : Goes s (skipTo expected s) :=
  grows_consume (List.takeWhile_prefix _)

theorem goes_string (s : Scanner) : Goes s (string s) := by
  have hbreak : (Lexeme.stringTail s.rest).1 ≠ .lineBreak := by
    rcases Lexeme.stringTail_shape s.rest with hshape | hshape <;> rw [hshape] <;> decide
  exact goes_finish hbreak (Lexeme.stringTail_isPrefix s.rest)

theorem goes_scanToken (s : Scanner) : Goes s (scanToken s) := by
  cases hrest : s.rest with
  | nil =>
      have hwiden := grows_widen s
      rw [if_pos hrest] at hwiden
      rw [scanToken_of_nil hrest]
      exact hwiden
  | cons c more =>
      rw [scanToken_of_cons hrest]
      by_cases hbreak : (Lexeme.tail c more).1 = .lineBreak
      · -- The line feed is taken before it is counted, so both are one move.
        have htext : c :: (Lexeme.tail c more).2 = ['\n'] := Piece.text_of_lineBreak hbreak
        rcases List.cons.inj htext with ⟨rfl, htail⟩
        have hbegins : ['\n'] <+: s.rest := ⟨more, hrest.symm⟩
        have hconsume : finish (Lexeme.tail '\n' more).1 (Lexeme.tail '\n' more).2 s.widen =
            .ok () (s.consume ['\n']) := by
          rw [hbreak, htail]
          rfl
        rw [hconsume]
        exact grows_consume hbegins
      · have hwiden := grows_widen s
        rw [if_neg (by simp [hrest])] at hwiden
        have hbegins : (Lexeme.tail c more).2 <+: s.widen.rest := by
          rw [rest_widen, hrest]
          exact Lexeme.tail_isPrefix c more
        exact .of_grows hwiden (goes_finish hbreak hbegins)

/-- The scans of all lexemes that are left go on from the scanner they start with. -/
theorem goes_scanAll (s : Scanner) : Goes s (scanAll s) := by
  induction s using lap_induction with
  | done s hrest =>
      rw [scanAll_of_isAtEnd ((isAtEnd_iff s).2 hrest)]
      exact .refl s
  | lap s c more hrest ih =>
      have hlap := goes_scanToken s.mark
      rw [scanToken_mark hrest] at hlap
      rw [scanAll_of_cons hrest]
      exact .of_grows ((grows_mark s).trans hlap) ih

theorem goes_scanTokens (s : Scanner) : Goes s (scanTokens s) := by
  have hall := goes_scanAll s
  rw [scanAll_eq] at hall
  rw [scanTokens_eq]
  exact hall.trans (grows_addEnd _)

/-! ## Calls -/

/-- What is made of an answer does not matter. -/
theorem Goes.bind_pure {β : Type} {s : Scanner} {step : ScanM α} (hstep : Goes s (step s))
    (answer : α → β) : Goes s ((step >>= fun a => pure (answer a)) s) := by
  cases hresult : step s with
  | ok a next =>
      rw [hresult] at hstep
      simp only [bind, EStateM.bind, hresult]
      exact hstep
  | error error next =>
      rw [hresult] at hstep
      simp only [bind, EStateM.bind, hresult]
      exact hstep

/-- A scanner goes on by every call. -/
theorem goes_perform (s : Scanner) (c : Call) : Goes s (perform c s) := by
  cases c with
  | isAtEnd => exact .refl s
  | peek => exact .refl s
  | peekNext => exact .refl s
  | advance => exact (goes_advance s).bind_pure _
  | accept expected => exact (goes_accept s expected).bind_pure _
  | skipTo expected => exact (goes_skipTo s expected).bind_pure _
  | string => exact (goes_string s).bind_pure _
  | number =>
      have hnumber := goes_finish (by decide : Lexeme.Shape.number ≠ .lineBreak)
        (Lexeme.numberTail_isPrefix s.rest)
      exact @Goes.bind_pure _ _ s number hnumber _
  | identifier =>
      have hword := goes_finish (by decide : Lexeme.Shape.word ≠ .lineBreak)
        (List.takeWhile_prefix (l := s.rest) Lexeme.isWordCharacter)
      exact @Goes.bind_pure _ _ s identifier hword _
  | scanToken => exact (goes_scanToken s).bind_pure _
  | addToken kind literal => exact grows_addToken s kind literal
  | mark => exact grows_mark s
  | scanTokens => exact (goes_scanTokens s).bind_pure _

/-! ## Histories -/

/-- The failures of a history of calls, in order. -/
def failures (s : Scanner) : List Call → List ScanError
  | [] => []
  | c :: later =>
    match s.call c with
    | (.ok _, next) => failures next later
    | (.error error, next) => error :: failures next later

/-- A scanner goes on by every history of calls, and was out of text as often as calls have
failed so. -/
theorem grows_performAll (s : Scanner) (history : List Call) :
    Grows ((failures s history).count .pastEnd) s (s.performAll history) := by
  induction history generalizing s with
  | nil => exact .refl s
  | cons c later ih =>
      have hcall := goes_perform s c
      rw [performAll, List.foldl_cons, failures, call]
      cases hresult : perform c s with
      | ok answer next =>
          rw [hresult] at hcall
          have hgrows := hcall.trans (ih next)
          rwa [Nat.zero_add] at hgrows
      | error error next =>
          rw [hresult] at hcall
          have hgrows := hcall.trans (ih next)
          have hcount : misses error + (failures next later).count .pastEnd =
              (error :: failures next later).count .pastEnd := by
            cases error <;> simp [misses, Nat.add_comm]
          rwa [hcount] at hgrows

/-- A scanner that has started on a source is still on it, on a line that counts from one. -/
theorem source_performAll (source : String) (history : List Call) :
    ((ofSource source).performAll history).source = source.toList ∧
      1 ≤ ((ofSource source).performAll history).line := by
  have hgrows := grows_performAll (ofSource source) history
  exact ⟨hgrows.source_eq, hgrows.le_line⟩

end Scanner
end Lox
