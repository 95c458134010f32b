/-!
# Decimal fractions

A decimal fraction is a list of digits with the place of its point, measured from
the first digit: the digits {lit}`d1 d2 … dn` with the point at {lit}`p` stand for
{lit}`0.d1d2…dn * 10 ^ p`.

Main results:

- Theorem {lit}`significand_ofNat`: the digits of a natural number spell that
  number.
- Theorem {lit}`exponent_ofNat`: they count powers of ten from the given one.
-/

namespace Lox

/-- Digits, most significant first, and the place of the point. -/
structure Decimal where
  digits : List Char
  point : Int
deriving DecidableEq

namespace Decimal

/-- The natural number that the digits spell. -/
def significand (d : Decimal) : Nat :=
  Nat.ofDigitChars 10 d.digits 0

/-- The power of ten that the last digit counts. -/
def exponent (d : Decimal) : Int :=
  d.point - d.digits.length

/-- The zero, written with one digit. -/
def zero : Decimal where
  digits := ['0']
  point := 1

/-- The decimal fraction {lit}`significand * 10 ^ exponent` with all digits of the
significand. -/
def ofNat (significand : Nat) (exponent : Int) : Decimal where
  digits := Nat.toDigits 10 significand
  point := (Nat.toDigits 10 significand).length + exponent

@[simp]
theorem significand_ofNat (n : Nat) (e : Int) : (ofNat n e).significand = n :=
  Nat.ofDigitChars_toDigits (by decide) (by decide)

/-- A decimal that is made of a number and a power of ten keeps the power. -/
@[simp]
theorem exponent_ofNat (n : Nat) (e : Int) : (ofNat n e).exponent = e := by
  simp only [exponent, ofNat]
  omega

/-- The same fraction without the zeros at the end of its digits. -/
def trim (d : Decimal) : Decimal where
  digits := (d.digits.reverse.dropWhile (· == '0')).reverse
  point := d.point

end Decimal
end Lox
