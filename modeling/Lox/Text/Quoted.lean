import Lox.Text.Printable

/-!
# Quoted text

A text is quoted for a message in single marks, or in double marks if it holds a
single mark and no double one.  The mark itself and the backslash are escaped, and
a character without a graphic form is named by its code point.

Main results:

- Theorem {lit}`mark_eq_double_iff`: when the marks are double.
- Theorem {lit}`escape_of_plain`: a printable character other than the mark and
  the backslash stands for itself.
-/

namespace Lox
namespace Text

/-- The mark that encloses single-quoted text. -/
def singleMark : Char := '\x27'

/-- The mark that encloses double-quoted text. -/
def doubleMark : Char := '\x22'

/-- The mark that encloses the quoted text. -/
def mark (text : List Char) : Char :=
  if singleMark ∈ text ∧ doubleMark ∉ text then doubleMark else singleMark

/-- The marks are double exactly if the text holds a single mark and no double
one. -/
theorem mark_eq_double_iff (text : List Char) :
    mark text = doubleMark ↔ singleMark ∈ text ∧ doubleMark ∉ text := by
  unfold mark
  split
  · simpa
  · rename_i hmark
    simp only [hmark, iff_false]
    decide

/-- The given count of hexadecimal digits, or more if the number needs more. -/
def hexDigits (width n : Nat) : List Char :=
  (Nat.toDigits 16 n).leftpad width '0'

/-- A code point named in the shortest of three forms, of two, four and eight
hexadecimal digits. -/
def codePointEscape (codePoint : Nat) : List Char :=
  if codePoint < 0x100 then
    ['\\', 'x'] ++ hexDigits 2 codePoint
  else if codePoint < 0x10000 then
    ['\\', 'u'] ++ hexDigits 4 codePoint
  else
    ['\\', 'U'] ++ hexDigits 8 codePoint

/-- A character between marks of the given kind. -/
def escape (enclosing c : Char) : List Char :=
  if c = enclosing ∨ c = '\\' then
    ['\\', c]
  else if c = '\n' then
    ['\\', 'n']
  else if c = '\t' then
    ['\\', 't']
  else if c = '\r' then
    ['\\', 'r']
  else if isPrintable c then
    [c]
  else
    codePointEscape c.toNat

/-- A printable character other than the mark and the backslash stands for
itself. -/
theorem escape_of_plain {enclosing c : Char} (hprintable : isPrintable c = true)
    (hmark : c ≠ enclosing) (hbackslash : c ≠ '\\') : escape enclosing c = [c] := by
  have hnewline : c ≠ '\n' := by rintro rfl; revert hprintable; decide
  have htab : c ≠ '\t' := by rintro rfl; revert hprintable; decide
  have hreturn : c ≠ '\r' := by rintro rfl; revert hprintable; decide
  simp [escape, hmark, hbackslash, hnewline, htab, hreturn, hprintable]

/-- The quoted form of a list of characters. -/
def quoteChars (text : List Char) : List Char :=
  mark text :: text.flatMap (escape (mark text)) ++ [mark text]

/-- The quoted form of a text. -/
def quote (text : String) : String :=
  String.ofList (quoteChars text.toList)

end Text
end Lox
