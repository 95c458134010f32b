import Lox.Proofs.Decimal.NumberText
import Lox.Proofs.Numeral.TextForms
import Lox.Proofs.Scanner.TokenStream

/-!
# Literals of numbers

The lexeme of a number is a decimal text in positional notation, and its literal is the number
to which the value of this text rounds, however many digits there are.  So the literal depends
on the value alone, and zeros around the digits do not change it.

Main results:

- Theorem {lit}`Lexeme.Means.exists_rounds`: what the lexeme of a number means.
- Theorem {lit}`number_literals_correctly_rounded`: the literals of a scan.
-/

namespace Lox

open Binary64 (Rounds)
open Numeral (DecimalText)

namespace Lexeme

/-- The lexeme of a number is in positional notation without a sign, and means the number to
which its value rounds. -/
theorem Means.exists_rounds {text : List Char} {literal : Value}
    (hmeans : Means text .number literal) :
    ∃ (w : DecimalText) (x : Binary64), w.chars = text ∧ w.sign = .none ∧ w.Positional ∧
      literal = .number x ∧ Rounds false w.magnitude x := by
  cases hmeans with
  | operator hoperator =>
      have hnone : ∀ operator ∈ operators, operator.2 ≠ .number := by decide
      exact absurd rfl (hnone _ hoperator)
  | @number text x hnumber hread =>
      rcases (DecimalText.accepts_number_iff text).1 hnumber with
        ⟨w, rfl, hsign, hpositional⟩
      have hrounds := (w.read?_chars_eq_some_iff x).1 hread
      rw [hsign] at hrounds
      exact ⟨w, x, rfl, hsign, hpositional, rfl, hrounds⟩

/-- A text in positional notation without a sign means the number to which its value rounds,
whatever it is the lexeme of. -/
theorem Means.eq_of_rounds {w : DecimalText} {kind : Token.Kind} {literal : Value}
    {x : Binary64} (hsign : w.sign = .none) (hpositional : w.Positional)
    (hrounds : Rounds false w.magnitude x) (hmeans : Means w.chars kind literal) :
    kind = .number ∧ literal = .number x := by
  have hnumber := (DecimalText.accepts_number_iff w.chars).2 ⟨w, rfl, hsign, hpositional⟩
  have hread : Numeral.read? w.chars = some x := by
    rw [w.read?_chars_eq_some_iff, hsign]
    exact hrounds
  exact means_unique hmeans (.number hnumber hread)

end Lexeme

namespace Scanner

open Lexeme (Means)

/-- A scan of a source returns tokens that mean what their lexemes stand for, and the end of
the text. -/
theorem exists_scanTokens_eq (source : String) :
    ∃ tokens last, scanTokens (ofSource source) =
        .ok (tokens ++ [Token.mk .endOfText "" .nil last.line]).toArray last ∧
      ∀ token ∈ tokens, Means token.lexeme.toList token.kind token.literal := by
  rcases exists_tokenStream (ofSource source) with ⟨tokens, hstream, htokens⟩
  have hempty : (ofSource source).tokens.toList = [] := rfl
  rw [hempty, List.nil_append] at htokens
  refine ⟨tokens, ((laps (ofSource source)).getLastD (ofSource source)).addEnd, ?_,
    hstream.means⟩
  rw [scanTokens_eq, tokens_addEnd, htokens]
  rfl

/-- Every token of a scan but the end of the text means what its lexeme stands for. -/
theorem means_of_mem_scanTokens {source : String} {tokens : Array Token} {last : Scanner}
    (hscan : scanTokens (ofSource source) = .ok tokens last) {token : Token}
    (hmem : token ∈ tokens) :
    token = ⟨.endOfText, "", .nil, last.line⟩ ∨
      Means token.lexeme.toList token.kind token.literal := by
  rcases exists_scanTokens_eq source with ⟨stream, last', hscan', hmeans⟩
  rw [hscan'] at hscan
  cases hscan
  rw [List.mem_toArray, List.mem_append, List.mem_singleton] at hmem
  exact hmem.symm.imp_right fun hmem => hmeans token hmem

/-- The literal of every number in a scan is the number to which the value of its lexeme
rounds: the nearest one, and of two that are equally near the even one.  It is infinite, or
zero, exactly for the values that are too great, or too small; it has no sign and is never
not-a-number.  Zeros in front of the digits and behind the fraction do not change it. -/
theorem number_literals_correctly_rounded (source : String) :
    ∃ tokens last, scanTokens (ofSource source) = .ok tokens last ∧
      ∀ token ∈ tokens, token.kind = .number →
        ∃ (w : DecimalText) (x : Binary64), w.chars = token.lexeme.toList ∧
          w.sign = .none ∧ w.Positional ∧ token.literal = .number x ∧
          Rounds false w.magnitude x ∧
          (x = .infinite false ↔ 2 ^ 1024 - 2 ^ 970 ≤ w.magnitude) ∧
          (x = .zero false ↔ w.magnitude ≤ 1 / 2 ^ 1075) ∧
          x.isNegative = false ∧ x ≠ .nan ∧
          ∀ source' tokens' last', scanTokens (ofSource source') = .ok tokens' last' →
            ∀ token' ∈ tokens', ∀ before after,
              token'.lexeme.toList = (w.pad before after).chars →
                token'.kind = .number ∧ token'.literal = .number x := by
  rcases exists_scanTokens_eq source with ⟨tokens, last, hscan, hmeans⟩
  refine ⟨_, last, hscan, fun token hmem hkind => ?_⟩
  rw [List.mem_toArray, List.mem_append, List.mem_singleton] at hmem
  rcases hmem with hmem | rfl
  · have hmeaning := hmeans token hmem
    rw [hkind] at hmeaning
    rcases hmeaning.exists_rounds with ⟨w, x, hchars, hsign, hpositional, hliteral, hrounds⟩
    refine ⟨w, x, hchars, hsign, hpositional, hliteral, hrounds, hrounds.eq_infinite_iff,
      hrounds.eq_zero_iff w.magnitude_nonneg, hrounds.isNegative_eq, hrounds.ne_nan, ?_⟩
    intro source' tokens' last' hscan' token' hmem' before after hlexeme
    have hunsigned : (w.pad before after).sign = .none := hsign
    have hpad : Rounds false (w.pad before after).magnitude x := by
      rw [w.magnitude_pad]
      exact hrounds
    rcases means_of_mem_scanTokens hscan' hmem' with rfl | hmeans'
    · exact absurd hlexeme.symm (w.pad before after).chars_ne_nil
    · rw [hlexeme] at hmeans'
      exact hmeans'.eq_of_rounds hunsigned (hpositional.pad before after) hpad
  · cases hkind

end Scanner
end Lox
