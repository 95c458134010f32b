import Lox.Binary64.Rounding
import Lox.Text.AsciiForm

/-!
# Numerals

A numeral is the text of a number: an optional sign, then digits with an optional
point and an optional power of ten, or one of the words {lit}`inf`,
{lit}`infinity` and {lit}`nan` in any case.  Blanks may surround it, and single
underscores may group its digits.  A numeral denotes the number nearest to its
exact value.

Main results:

- Theorem {lit}`decimal?_digits`: a list of digits denotes the number nearest to
  the natural number that it spells.
-/

namespace Lox
namespace Numeral

/-! ## Blanks and grouped digits -/

/-- The blanks that may surround a numeral. -/
def isBlank (c : Char) : Bool :=
  c == ' ' || c == '\t' || c == '\n' || c == '\r' || c == '\x0b' || c == '\x0c'

/-- The text without the blanks around it. -/
def trim (text : List Char) : List Char :=
  ((text.dropWhile isBlank).reverse.dropWhile isBlank).reverse

/-- The text without its underscores, each of which must stand between two digits.
The flag tells whether the character before the text is a digit. -/
def ungroup? : Bool → List Char → Option (List Char)
  | _, [] => some []
  | afterDigit, '_' :: c :: rest =>
    if afterDigit && c.isDigit then ungroup? false (c :: rest) else none
  | _, '_' :: [] => none
  | _, c :: rest => (ungroup? c.isDigit rest).map (c :: ·)

/-! ## Signs, digits and powers of ten -/

/-- Whether a text begins with a minus sign, and what follows its sign. -/
def sign : List Char → Bool × List Char
  | '-' :: rest => (true, rest)
  | '+' :: rest => (false, rest)
  | text => (false, text)

/-- The power of ten at the end of a numeral.  It is zero where the text is empty;
otherwise the text is a letter {lit}`e`, an optional sign and digits. -/
def exponent? : List Char → Option Int
  | [] => some 0
  | e :: rest =>
    let (negative, digits) := sign rest
    if (e = 'e' ∨ e = 'E') ∧ digits ≠ [] ∧ digits.all Char.isDigit then
      let magnitude : Int := Nat.ofDigitChars 10 digits 0
      some (if negative then -magnitude else magnitude)
    else
      none

/-- The digits after a point at the start of the text, and what follows them. -/
def fraction : List Char → List Char × List Char
  | '.' :: rest => (rest.takeWhile Char.isDigit, rest.dropWhile Char.isDigit)
  | text => ([], text)

/-- The given power of ten, or the nearest one within the bound.  With the given
count of digits, every power beyond the bound gives a zero or an infinity, and so
does the bound. -/
def boundedExponent (digitCount : Nat) (exponent : Int) : Int :=
  let bound : Int := 400 + digitCount
  max (-bound) (min bound exponent)

/-- The number of a decimal numeral without its sign. -/
def decimal? (negative : Bool) (text : List Char) : Option Binary64 :=
  let whole := text.takeWhile Char.isDigit
  let (part, rest) := fraction (text.dropWhile Char.isDigit)
  let digits := whole ++ part
  if digits = [] then
    none
  else
    (exponent? rest).map fun exponent =>
      Binary64.ofDecimal negative (Nat.ofDigitChars 10 digits 0)
        (boundedExponent digits.length exponent - part.length)

/-- A list of digits denotes the number nearest to the natural number that it
spells. -/
theorem decimal?_digits {digits : List Char} (hne : digits ≠ [])
    (hdigits : ∀ c ∈ digits, c.isDigit = true) :
    decimal? false digits =
      some (Binary64.ofDecimal false (Nat.ofDigitChars 10 digits 0) 0) := by
  have htake : (digits ++ []).takeWhile Char.isDigit = digits ++ [] := by
    rw [List.takeWhile_append_of_pos hdigits, List.takeWhile_nil]
  have hdrop : (digits ++ []).dropWhile Char.isDigit = [] := by
    rw [List.dropWhile_append_of_pos hdigits, List.dropWhile_nil]
  rw [List.append_nil] at htake hdrop
  have hbounded : boundedExponent digits.length 0 = 0 := by
    simp only [boundedExponent]
    omega
  simp [decimal?, htake, hdrop, fraction, exponent?, hne, hbounded]

/-! ## Names -/

/-- The number of a name without its sign. -/
def named? (negative : Bool) (text : List Char) : Option Binary64 :=
  match text.map Char.toLower with
  | ['i', 'n', 'f'] => some (.infinite negative)
  | ['i', 'n', 'f', 'i', 'n', 'i', 't', 'y'] => some (.infinite negative)
  | ['n', 'a', 'n'] => some .nan
  | _ => none

/-! ## Reading -/

/-- The number of an ASCII numeral without blanks around it. -/
def readAscii? (text : List Char) : Option Binary64 := do
  let (negative, magnitude) := sign (← ungroup? false text)
  decimal? negative magnitude <|> named? negative magnitude

/-- The number that a text denotes, if it is a numeral. -/
def read? (text : List Char) : Option Binary64 := do
  readAscii? (trim (← text.mapM Text.toAscii?))

end Numeral
end Lox
