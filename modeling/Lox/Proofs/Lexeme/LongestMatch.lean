import Lox.Proofs.Lexeme.Grammar

/-!
# Longest match

The lexeme at the beginning of a text is the longest one among all lexemes with which
the text begins.  Where it begins with none, an opening quote takes the whole text
and any other character stands alone.

Both halves of the rule come from one fact: a lexeme is found whole where it stands
alone, and what is found only grows where the text goes on.

Main results:

- Theorem {lit}`cut_tail`: the scanner cuts by longest match.
- Theorem {lit}`cut_unique`: longest match leaves no choice.
- Theorem {lit}`longestRest_iff`: the rest of a number is the longest text that goes on with it.
-/

namespace Lox
namespace Lexeme

/-! ## The rule -/

/-- The text begins with no lexeme. -/
def NoLexeme (text : List Char) : Prop :=
  ∀ other, other <+: text → ¬IsLexeme other

/-- The slice of a class that longest match cuts off a text. -/
inductive Cut : Shape → List Char → List Char → Prop where
  | lexeme {shape : Shape} {text slice : List Char} (haccepts : shape.Accepts slice)
      (hbegins : slice <+: text)
      (hlongest : ∀ other, other <+: text → IsLexeme other → other.length ≤ slice.length) :
      Cut shape text slice
  | unterminated {rest : List Char} (hnone : NoLexeme ('\x22' :: rest)) :
      Cut .unterminated ('\x22' :: rest) ('\x22' :: rest)
  | unexpected {c : Char} {rest : List Char} (hquote : c ≠ '\x22')
      (hnone : NoLexeme (c :: rest)) : Cut .unexpected (c :: rest) [c]

/-! ## The scanner follows it -/

/-- No lexeme at the beginning of a text is longer than the one that is found. -/
theorem length_le_tail {c : Char} {rest other : List Char} (hother : other <+: c :: rest)
    (hlexeme : IsLexeme other) : other.length ≤ (c :: (tail c rest).2).length := by
  rcases hlexeme with ⟨shape, haccepts⟩
  cases other with
  | nil => exact Nat.zero_le _
  | cons d more =>
      rcases List.cons_prefix_cons.1 hother with ⟨rfl, hmore⟩
      have hgrown := (tail_mono d hmore).length_le
      rw [tail_of_accepts haccepts] at hgrown
      exact Nat.succ_le_succ hgrown

/-- An opening quote begins a string, closed or not. -/
theorem stringTail_shape (rest : List Char) :
    (stringTail rest).1 = .string ∨ (stringTail rest).1 = .unterminated := by
  unfold stringTail
  split
  · exact Or.inr rfl
  · exact Or.inl rfl

/-- An open string begins with no lexeme. -/
theorem noLexeme_of_unterminated {rest : List Char}
    (hopen : tail '\x22' rest = (.unterminated, rest)) : NoLexeme ('\x22' :: rest) := by
  rintro other hother ⟨shape, haccepts⟩
  cases other with
  | nil => exact haccepts.ne_nil rfl
  | cons d more =>
      rcases List.cons_prefix_cons.1 hother with ⟨rfl, after, rfl⟩
      have halone := tail_of_accepts haccepts
      rw [tail_quote] at halone hopen
      rcases stringTail_shape more with hclosed | hopened
      · rw [stringTail_append_of_string hclosed] at hopen
        rw [hopen] at hclosed
        cases hclosed
      · rw [halone] at hopened
        cases hopened
        exact haccepts

/-- A character that opens nothing begins no lexeme. -/
theorem noLexeme_of_unexpected {c : Char}
    (hunexpected : ∀ more, tail c more = (.unexpected, [])) (rest : List Char) :
    NoLexeme (c :: rest) := by
  rintro other hother ⟨shape, haccepts⟩
  cases other with
  | nil => exact haccepts.ne_nil rfl
  | cons d more =>
      rcases List.cons_prefix_cons.1 hother with ⟨rfl, -⟩
      have halone := (hunexpected more).symm.trans (tail_of_accepts haccepts)
      cases halone
      exact haccepts

/-- The scanner cuts by longest match. -/
theorem cut_tail (c : Char) (rest : List Char) :
    Cut (tail c rest).1 (c :: rest) (c :: (tail c rest).2) := by
  rcases accepts_tail c rest with haccepts | ⟨rfl, hopen⟩ | ⟨hquote, hunexpected⟩
  · refine .lexeme haccepts ?_ ?_
    · exact List.cons_prefix_cons.2 ⟨rfl, tail_isPrefix c rest⟩
    · intro other hother hlexeme
      exact length_le_tail hother hlexeme
  · rw [hopen]
    exact .unterminated (noLexeme_of_unterminated hopen)
  · rw [hunexpected]
    exact .unexpected hquote (noLexeme_of_unexpected hunexpected rest)

/-! ## It leaves no choice -/

/-- A text has one slice, in one class. -/
theorem cut_unique {first second : Shape} {text slice other : List Char}
    (hfirst : Cut first text slice) (hsecond : Cut second text other) :
    first = second ∧ slice = other := by
  cases hfirst with
  | lexeme haccepts hbegins hlongest =>
      cases hsecond with
      | lexeme haccepts' hbegins' hlongest' =>
          have hle := hlongest' slice hbegins ⟨first, haccepts⟩
          have hge := hlongest other hbegins' ⟨second, haccepts'⟩
          have hslice : slice = other :=
            (List.prefix_of_prefix_length_le hbegins hbegins' hle).eq_of_length_le hge
          subst hslice
          exact ⟨accepts_unique haccepts haccepts', rfl⟩
      | unterminated hnone => exact (hnone slice hbegins ⟨first, haccepts⟩).elim
      | unexpected hquote hnone => exact (hnone slice hbegins ⟨first, haccepts⟩).elim
  | unterminated hnone =>
      cases hsecond with
      | lexeme haccepts' hbegins' => exact (hnone other hbegins' ⟨second, haccepts'⟩).elim
      | unterminated => exact ⟨rfl, rfl⟩
      | unexpected hquote => exact absurd rfl hquote
  | unexpected hquote hnone =>
      cases hsecond with
      | lexeme haccepts' hbegins' => exact (hnone other hbegins' ⟨second, haccepts'⟩).elim
      | unterminated => exact absurd rfl hquote
      | unexpected => exact ⟨rfl, rfl⟩

/-! ## The rest of a number -/

/-- The longest rest of a number with which a text begins. -/
structure LongestRest (text rest : List Char) : Prop where
  accepts : NumberRest rest
  isPrefix : rest <+: text
  longest : ∀ other, other <+: text → NumberRest other → other.length ≤ rest.length

/-- The rest of a number is the longest text that goes on with it. -/
theorem longestRest_iff (text rest : List Char) :
    LongestRest text rest ↔ rest = numberTail text := by
  have hprefix := numberTail_isPrefix text
  have hlongest (other : List Char) (hother : other <+: text) (haccepts : NumberRest other) :
      other.length ≤ (numberTail text).length := by
    have hmono := numberTail_mono hother
    rw [haccepts.numberTail_eq] at hmono
    exact hmono.length_le
  constructor
  · intro hrest
    have hle := hlongest rest hrest.isPrefix hrest.accepts
    have hge := hrest.longest _ hprefix (numberRest_numberTail text)
    exact (List.prefix_of_prefix_length_le hrest.isPrefix hprefix hle).eq_of_length_le hge
  · rintro rfl
    exact ⟨numberRest_numberTail text, hprefix, hlongest⟩

end Lexeme
end Lox
