/-!
# Blanks and decimal digits of every script

The reader of numerals takes the digits of every script and every blank character
of the Unicode standard.  Each is replaced by its ASCII form before the numeral is
read.

Main results:

- Theorem {lit}`toAscii?_of_ascii`: an ASCII character stands for itself.
-/

namespace Lox
namespace Text

/-- The blank characters beyond ASCII. -/
def wideBlanks : List Nat :=
  [0x85, 0xa0, 0x1680, 0x2000, 0x2001, 0x2002, 0x2003, 0x2004, 0x2005, 0x2006, 0x2007, 0x2008,
   0x2009, 0x200a, 0x2028, 0x2029, 0x202f, 0x205f, 0x3000]

/-- The zeros of the decimal digits of every script.  The other nine digits of a
script follow its zero in order. -/
def digitZeros : List Nat :=
  [0x30, 0x660, 0x6f0, 0x7c0, 0x966, 0x9e6, 0xa66, 0xae6, 0xb66, 0xbe6, 0xc66, 0xce6,
   0xd66, 0xde6, 0xe50, 0xed0, 0xf20, 0x1040, 0x1090, 0x17e0, 0x1810, 0x1946, 0x19d0,
   0x1a80, 0x1a90, 0x1b50, 0x1bb0, 0x1c40, 0x1c50, 0xa620, 0xa8d0, 0xa900, 0xa9d0,
   0xa9f0, 0xaa50, 0xabf0, 0xff10, 0x104a0, 0x10d30, 0x11066, 0x110f0, 0x11136, 0x111d0,
   0x112f0, 0x11450, 0x114d0, 0x11650, 0x116c0, 0x11730, 0x118e0, 0x11950, 0x11c50,
   0x11d50, 0x11da0, 0x16a60, 0x16ac0, 0x16b50, 0x1d7ce, 0x1d7d8, 0x1d7e2, 0x1d7ec,
   0x1d7f6, 0x1e140, 0x1e2f0, 0x1e950, 0x1fbf0]

/-- The value of a decimal digit of any script. -/
def digitValue? (c : Char) : Option Nat :=
  (digitZeros.find? fun first =>
    decide (first ≤ c.toNat) && decide (c.toNat < first + 10)).map (c.toNat - ·)

/-- The ASCII form of a character: itself, the space for a blank, the ASCII digit
for a digit.  Other characters have none. -/
def toAscii? (c : Char) : Option Char :=
  if c.toNat < 0x80 then
    some c
  else if c.toNat ∈ wideBlanks then
    some ' '
  else
    (digitValue? c).map Nat.digitChar

/-- An ASCII character stands for itself. -/
theorem toAscii?_of_ascii {c : Char} (hascii : c.toNat < 0x80) : toAscii? c = some c := by
  simp [toAscii?, hascii]

end Text
end Lox
