import Lox.Decimal.Shortest

/-!
# Number text

A number is written in positional notation, or in scientific notation when its
point would stand too far from its digits.  Two formats differ only in how they
write a whole number: Lox writes {lit}`3`, a diagnostic dump {lit}`3.0`.

Main results:

- Theorem {lit}`exponentText_two_digits`: a small exponent has a sign and two
  digits.
- Theorem {lit}`chars_nan`, {lit}`chars_infinite`: the names of the numbers that
  have no digits.
- Theorem {lit}`chars_diagnostic`: what a diagnostic dump adds to the text of a number.
-/

namespace Lox

/-- The decisions of a number format: the places of the point for which notation
is positional, and what follows a whole number. -/
structure NumberFormat where
  /-- The last place of the point, to the left of all digits, that is too far. -/
  farLeft : Int
  /-- The last place of the point that is positional. -/
  lastPositional : Int
  /-- What follows the digits of a whole number. -/
  wholeEnd : List Char

namespace NumberFormat

/-- The number text of Lox: a whole number has no point. -/
def lox : NumberFormat where
  farLeft := -4
  lastPositional := 16
  wholeEnd := []

/-- The number text of diagnostics: a whole number keeps a zero after its point. -/
def diagnostic : NumberFormat where
  farLeft := -4
  lastPositional := 16
  wholeEnd := ['.', '0']

/-- Whether a decimal with its point there is positional. -/
def isPositional (format : NumberFormat) (point : Int) : Bool :=
  decide (format.farLeft < point) && decide (point ≤ format.lastPositional)

end NumberFormat

namespace Decimal

/-! ## Positional notation -/

/-- The digits with a point in its place, and zeros as far as the point is from
the digits. -/
def positional (format : NumberFormat) (d : Decimal) : List Char :=
  if d.point ≤ 0 then
    ['0', '.'] ++ List.replicate (-d.point).toNat '0' ++ d.digits
  else if d.point < d.digits.length then
    d.digits.take d.point.toNat ++ ['.'] ++ d.digits.drop d.point.toNat
  else
    d.digits ++ List.replicate (d.point.toNat - d.digits.length) '0' ++ format.wholeEnd

/-- A dump writes a decimal in positional notation as Lox does, and a whole one with a point and
a zero behind it. -/
theorem positional_diagnostic (d : Decimal) :
    d.positional .diagnostic = d.positional .lox ∨
      d.positional .diagnostic = d.positional .lox ++ ['.', '0'] := by
  unfold positional
  split
  · exact .inl rfl
  · split
    · exact .inl rfl
    · exact .inr (by simp [NumberFormat.lox, NumberFormat.diagnostic])

/-! ## Scientific notation -/

/-- A power of ten: its sign and at least two digits. -/
def exponentText (exponent : Int) : List Char :=
  let sign := if exponent < 0 then '-' else '+'
  sign :: (Nat.toDigits 10 exponent.natAbs).leftpad 2 '0'

/-- A small exponent has a sign and two digits. -/
theorem exponentText_two_digits (exponent : Int) (hsmall : exponent.natAbs < 100) :
    (exponentText exponent).length = 3 := by
  have hlength : (Nat.toDigits 10 exponent.natAbs).length ≤ 2 :=
    (Nat.length_toDigits_le_iff (by decide) (by decide)).2 hsmall
  simp [exponentText, List.leftpad]
  omega

/-- One digit, a point before the other digits if there are any, and the power of
ten of the first digit. -/
def scientific (d : Decimal) : List Char :=
  let fraction := d.digits.drop 1
  let point := if fraction.isEmpty then [] else ['.']
  d.digits.take 1 ++ point ++ fraction ++ ['e'] ++ exponentText (d.point - 1)

/-- A decimal in the notation that its point asks for. -/
def chars (format : NumberFormat) (d : Decimal) : List Char :=
  if format.isPositional d.point then d.positional format else d.scientific

/-- A dump writes a decimal as Lox does, or adds a point and a zero. -/
theorem chars_diagnostic (d : Decimal) :
    d.chars .diagnostic = d.chars .lox ∨ d.chars .diagnostic = d.chars .lox ++ ['.', '0'] := by
  have hformat : NumberFormat.diagnostic.isPositional d.point =
      NumberFormat.lox.isPositional d.point := rfl
  rw [chars, chars, hformat]
  split
  · exact d.positional_diagnostic
  · exact .inl rfl

end Decimal

namespace Binary64

/-- The sign in front of a number's text. -/
def signChars (negative : Bool) : List Char :=
  if negative then ['-'] else []

/-- The characters of a number's text: its sign and its shortest decimal. -/
def chars (format : NumberFormat) : Binary64 → List Char
  | .nan => ['n', 'a', 'n']
  | .infinite negative => signChars negative ++ ['i', 'n', 'f']
  | .finite negative rank =>
    signChars negative ++ (Decimal.shortest rank).chars format

/-- The text of a number. -/
def text (format : NumberFormat) (x : Binary64) : String :=
  String.ofList (x.chars format)

@[simp]
theorem chars_nan (format : NumberFormat) : chars format .nan = ['n', 'a', 'n'] :=
  rfl

@[simp]
theorem chars_infinite (format : NumberFormat) (negative : Bool) :
    chars format (.infinite negative) = signChars negative ++ ['i', 'n', 'f'] :=
  rfl

/-- A dump writes a number as Lox does, or adds a point and a zero. -/
theorem chars_diagnostic (x : Binary64) :
    x.chars .diagnostic = x.chars .lox ∨ x.chars .diagnostic = x.chars .lox ++ ['.', '0'] := by
  cases x with
  | finite negative rank =>
    rcases (Decimal.shortest rank).chars_diagnostic with hsame | hmore
    · exact .inl (by rw [chars, chars, hsame])
    · exact .inr (by rw [chars, chars, hmore, List.append_assoc])
  | _ => exact .inl rfl

end Binary64
end Lox
