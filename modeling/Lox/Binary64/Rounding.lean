import Lox.Binary64.Basic

/-!
# Rounding to the nearest number

An exact quotient of natural numbers is rounded once, to the nearest number, and
a tie goes to the number whose last bit is even.  A magnitude of {lit}`2 ^ 1024 -
2 ^ 970` or more is infinite, since the infinities take the rank after that of the
largest finite magnitude.

Main results:

- Theorem {lit}`roundDiv_cases`: rounding a quotient takes one of its two
  neighbours, and never the farther one.
- Theorem {lit}`roundDiv_one`: a natural number is its own rounding.
-/

namespace Lox
namespace Binary64

/-! ## Rounding a quotient to a natural number -/

/-- The natural number nearest to a quotient; of two that are equally near, the
even one. -/
def roundDiv (num den : Nat) : Nat :=
  let quotient := num / den
  let remainder := num % den
  if 2 * remainder < den then
    quotient
  else if den < 2 * remainder then
    quotient + 1
  else
    quotient + quotient % 2

/-- Rounding takes one of the two neighbours of the quotient, never the farther
one. -/
theorem roundDiv_cases (num den : Nat) :
    (roundDiv num den = num / den ∧ 2 * (num % den) ≤ den) ∨
      (roundDiv num den = num / den + 1 ∧ den ≤ 2 * (num % den)) := by
  unfold roundDiv
  dsimp only
  split
  · exact .inl ⟨rfl, by omega⟩
  · split
    · exact .inr ⟨rfl, by omega⟩
    · rcases Nat.mod_two_eq_zero_or_one (num / den) with heven | hodd
      · exact .inl ⟨by omega, by omega⟩
      · exact .inr ⟨by omega, by omega⟩

@[simp]
theorem roundDiv_one (num : Nat) : roundDiv num 1 = num := by
  simp [roundDiv, Nat.mod_one]

/-! ## Rounding a quotient to a rank -/

/-- The rank nearest to {lit}`num / den` units.  The quotient is scaled down to
53 binary digits, the width of a significand, and rounded there; a significand
that rounds up to the next power of two carries into the rank of the next binade
by itself. -/
def nearestRank (num den : Nat) : Nat :=
  let shift := (num / den).log2 - 52
  shift * binadeSize + roundDiv num (den <<< shift)

/-- The number of the given sign nearest to {lit}`num / den` units. -/
def ofRatio (negative : Bool) (num den : Nat) : Binary64 :=
  let rank := nearestRank num den
  if h : rank < rankLimit then
    .finite negative ⟨rank, h⟩
  else
    .infinite negative

/-! ## Rounding a decimal -/

/-- The number of the given sign nearest to {lit}`significand * 10 ^ exponent`. -/
def ofDecimal (negative : Bool) (significand : Nat) (exponent : Int) : Binary64 :=
  ofRatio negative
    (significand * Nat.pow 10 exponent.toNat * unitsPerOne)
    (Nat.pow 10 (-exponent).toNat)

end Binary64
end Lox
