import Lox.Binary64.Basic

/-!
# Comparison

Numbers are compared by their exact values, in units and with their signs.  Both
zeros have one value, an infinity lies beyond every finite number, and
not-a-number has no value, so that every comparison with it is false.

Main results:

- Theorem {lit}`equal_comm`: equality does not depend on the order of its
  operands.
- Theorem {lit}`equal_self`: a number equals itself unless it is not-a-number.
-/

namespace Lox
namespace Binary64

/-- The value in units, with its sign.  An infinity counts as the magnitude of the
first rank that is not finite, {lit}`2 ^ 1024`. -/
def value? : Binary64 → Option Int
  | .nan => none
  | .infinite negative => some (signed negative (units rankLimit))
  | .finite negative rank => some (signed negative (units rank))

/-- Decide a relation on the values of two numbers; it does not hold where one of
them is not-a-number. -/
def compareValues (holds : Int → Int → Bool) (x y : Binary64) : Bool :=
  match x.value?, y.value? with
  | some a, some b => holds a b
  | _, _ => false

/-- Equality of values. -/
def equal (x y : Binary64) : Bool :=
  compareValues (fun a b => decide (a = b)) x y

/-- The first value is less than the second. -/
def less (x y : Binary64) : Bool :=
  compareValues (fun a b => decide (a < b)) x y

/-- The first value is at most the second. -/
def lessEqual (x y : Binary64) : Bool :=
  compareValues (fun a b => decide (a ≤ b)) x y

/-- Equality does not depend on the order of its operands. -/
theorem equal_comm (x y : Binary64) : x.equal y = y.equal x := by
  unfold equal compareValues
  cases x.value? <;> cases y.value? <;> simp [eq_comm]

/-- A number equals itself unless it is not-a-number. -/
theorem equal_self (x : Binary64) : x.equal x = decide (x ≠ .nan) := by
  cases x <;> simp [equal, compareValues, value?]

end Binary64
end Lox
