import Lox.Binary64.Order
import Lox.Decimal.Layout
import Lox.Text.Quoted

/-!
# Lox values

A value is nil, a boolean, a number or a string.  Values of different sorts are
never equal, and only nil and false are false in a condition.  The text of a value
follows a spelling: the one of Lox itself, the one of a token dump, and the one of
a message, which puts strings in quotes.

Main results:

- Theorem {lit}`truthy_eq_false_iff`: the two values that count as false.
- Theorem {lit}`equal_comm`: equality does not depend on the order of its
  operands.
-/

namespace Lox

/-- A value of a Lox program. -/
inductive Value where
  | nil
  | boolean (value : Bool)
  | number (value : Binary64)
  | string (value : String)
deriving DecidableEq, Inhabited

namespace Value

/-! ## Truth and equality -/

/-- Whether a value holds in a condition. -/
def truthy : Value → Bool
  | .nil => false
  | .boolean b => b
  | _ => true

/-- Nil and false are the values that count as false. -/
theorem truthy_eq_false_iff (v : Value) :
    v.truthy = false ↔ v = .nil ∨ v = .boolean false := by
  cases v <;> simp [truthy]

/-- Equality of values: of the same sort, and equal within it. -/
def equal : Value → Value → Bool
  | .nil, .nil => true
  | .boolean a, .boolean b => a == b
  | .number x, .number y => x.equal y
  | .string s, .string t => s == t
  | _, _ => false

/-- Equality does not depend on the order of its operands. -/
theorem equal_comm (v w : Value) : v.equal w = w.equal v := by
  cases v <;> cases w <;> simp [equal, Binary64.equal_comm, Bool.beq_comm]

/-- The number that stands for a boolean or a number where the two sorts are not
told apart: one for true, zero for false. -/
def asNumber? : Value → Option Binary64
  | .boolean true => some .one
  | .boolean false => some (.zero false)
  | .number x => some x
  | _ => none

/-- Equality that does not tell a boolean from the number that stands for it. -/
def looselyEqual (v w : Value) : Bool :=
  match v.asNumber?, w.asNumber? with
  | some x, some y => x.equal y
  | _, _ => v.equal w

/-! ## Text -/

/-- How the values of each sort are written. -/
structure Spelling where
  nil : String
  boolean : Bool → String
  number : NumberFormat
  string : String → String

/-- The spelling of Lox: bare words, whole numbers without a point, and the
characters of a string as they are. -/
def Spelling.lox : Spelling where
  nil := "nil"
  boolean b := if b then "true" else "false"
  number := .lox
  string s := s

/-- The spelling of a token dump: capital words, and whole numbers with a point. -/
def Spelling.dump : Spelling where
  nil := "None"
  boolean b := if b then "True" else "False"
  number := .diagnostic
  string s := s

/-- The spelling of a message: that of a dump, with strings in quotes. -/
def Spelling.message : Spelling :=
  { Spelling.dump with string := Text.quote }

/-- The text of a value in a spelling. -/
def spell (spelling : Spelling) : Value → String
  | .nil => spelling.nil
  | .boolean b => spelling.boolean b
  | .number x => x.text spelling.number
  | .string s => spelling.string s

/-- The text of a value in Lox. -/
def text (v : Value) : String :=
  v.spell .lox

@[simp]
theorem text_string (s : String) : text (.string s) = s :=
  rfl

@[simp]
theorem text_number (x : Binary64) : text (.number x) = x.text .lox :=
  rfl

end Value
end Lox
