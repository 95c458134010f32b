import Lox.Proofs.Numeral.Reading

/-!
# Plain numerals

A number of the language is a plain numeral: digits, and a point with digits behind
it if there is one.  The reader of numerals allows more than that, but on a plain
numeral none of it matters, and the exact value is read off the digits.

Main results:

- Theorem {lit}`exists_pointed_of_number`: the numbers of the language are the plain
  numerals.
- Theorem {lit}`read?_pointed`: what a plain numeral denotes.
- Theorem {lit}`exists_read?_of_number`: every number of the language denotes
  something.
-/

namespace Lox
namespace Numeral

open Lexeme (Digit Digits)

/-- Digits and the point are taken as they are. -/
theorem bare_of_plain {c : Char} (hplain : Digit c ∨ c = '.') : Bare c := by
  have hbounds : '.' ≤ c ∧ c ≤ '9' := by
    rcases hplain with ⟨hzero, hnine⟩ | rfl
    · exact ⟨Char.le_trans (by decide) hzero, hnine⟩
    · decide
  have hne (other : Char) (hother : ¬('.' ≤ other ∧ other ≤ '9')) : c ≠ other := by
    rintro rfl
    exact hother hbounds
  refine ⟨?_, ?_, hne '_' (by decide)⟩
  · have hle : c.toNat ≤ '9'.toNat := hbounds.2
    exact Nat.lt_of_le_of_lt hle (by decide)
  · simp [isBlank, hne ' ' (by decide), hne '\t' (by decide), hne '\n' (by decide),
      hne '\r' (by decide), hne '\x0b' (by decide), hne '\x0c' (by decide)]

/-- Digits with a point among them hold nothing else. -/
theorem plain_pointed {whole part : List Char} (hwhole : ∀ c ∈ whole, Digit c)
    (hpart : ∀ c ∈ part, Digit c) : ∀ c ∈ pointed whole part, Digit c ∨ c = '.' := by
  intro c hc
  unfold pointed at hc
  split at hc
  · simp only [List.append_nil] at hc
    exact Or.inl (hwhole c hc)
  · simp only [List.mem_append, List.mem_cons] at hc
    rcases hc with hc | hc | hc
    · exact Or.inl (hwhole c hc)
    · exact Or.inr hc
    · exact Or.inl (hpart c hc)

/-! ## What they denote -/

/-- A plain numeral begins with a digit, so that it has no sign, whatever follows it. -/
theorem sign_pointed {whole : List Char} (hwhole : Digits whole) (part power : List Char) :
    sign (pointed whole part ++ power) = (false, pointed whole part ++ power) := by
  rcases hwhole with ⟨hne, hwhole⟩
  cases whole with
  | nil => exact absurd rfl hne
  | cons c rest =>
      have hdigit := hwhole c List.mem_cons_self
      apply sign_of_unsigned
      · rintro rfl
        exact absurd hdigit (by decide)
      · rintro rfl
        exact absurd hdigit (by decide)

/-- A plain numeral denotes the number nearest to the natural number that its digits spell,
divided by ten for every digit behind the point. -/
theorem decimal?_plain {whole part : List Char} (hwhole : Digits whole)
    (hpart : ∀ c ∈ part, Digit c) (negative : Bool) :
    decimal? negative (pointed whole part) =
      some (Binary64.ofDecimal negative (Nat.ofDigitChars 10 (whole ++ part) 0)
        (-part.length)) := by
  have hdecimal := @decimal?_pointed whole part [] 0 hwhole hpart (Or.inl rfl) rfl negative
  have hbounded : boundedExponent (whole ++ part).length 0 = 0 := by
    simp only [boundedExponent]
    omega
  rw [List.append_nil, hbounded, Int.zero_sub] at hdecimal
  exact hdecimal

/-- Digits with a point among them are read as the number that they spell. -/
theorem read?_pointed {whole part : List Char} (hwhole : Digits whole)
    (hpart : ∀ c ∈ part, Digit c) :
    read? (pointed whole part) =
      some (Binary64.ofDecimal false (Nat.ofDigitChars 10 (whole ++ part) 0)
        (-part.length)) := by
  have hbare : ∀ c ∈ pointed whole part, Bare c :=
    fun c hc => bare_of_plain (plain_pointed hwhole.2 hpart c hc)
  have hsign := sign_pointed hwhole part []
  rw [List.append_nil] at hsign
  rw [read?_of_bare hbare hsign, decimal?_plain hwhole hpart]
  rfl

/-- The numbers of the language are the plain numerals. -/
theorem exists_pointed_of_number {text : List Char}
    (hnumber : Lexeme.Shape.number.Accepts text) :
    ∃ whole part, text = pointed whole part ∧ Digits whole ∧ ∀ c ∈ part, Digit c := by
  rcases hnumber with hdigits | ⟨whole, part, rfl, hwhole, hne, hpart⟩
  · exact ⟨text, [], by simp [pointed], hdigits, by simp⟩
  · exact ⟨whole, part, by simp [pointed, hne], hwhole, hpart⟩

/-- Plain numerals are numbers of the language. -/
theorem accepts_pointed {whole part : List Char} (hwhole : Digits whole)
    (hpart : ∀ c ∈ part, Digit c) : Lexeme.Shape.number.Accepts (pointed whole part) := by
  by_cases hnone : part = []
  · left
    simpa [pointed, hnone] using hwhole
  · exact Or.inr ⟨whole, part, by simp [pointed, hnone], hwhole, hnone, hpart⟩

/-- Every number of the language denotes something. -/
theorem exists_read?_of_number {text : List Char}
    (hnumber : Lexeme.Shape.number.Accepts text) : ∃ x, read? text = some x := by
  rcases exists_pointed_of_number hnumber with ⟨whole, part, rfl, hwhole, hpart⟩
  exact ⟨_, read?_pointed hwhole hpart⟩

end Numeral
end Lox
