import Lox.Binary64.Rounding

/-!
# Arithmetic

Addition, subtraction, multiplication and division: the exact result of the two
operands, rounded once.  An operation with no meaningful result is not-a-number,
and division by a zero is infinite with the sign of a product.

Main results:

- Theorem {lit}`neg_neg`: changing the sign twice changes nothing.
- Theorem {lit}`sub_eq_add_neg`: a difference is the sum with the number of the
  other sign.
-/

namespace Lox
namespace Binary64

/-! ## Sign, sum and difference -/

/-- The number of the other sign. -/
def neg : Binary64 → Binary64
  | .nan => .nan
  | .infinite negative => .infinite (!negative)
  | .finite negative rank => .finite (!negative) rank

/-- The sum.  Infinities of unlike signs have none, and a sum of zero is negative
only if both operands are. -/
def add : Binary64 → Binary64 → Binary64
  | .finite s m, .finite t n =>
    let sum := signed s (units m) + signed t (units n)
    if sum = 0 then zero (s && t) else ofRatio (decide (sum < 0)) sum.natAbs 1
  | .infinite s, .finite _ _ => .infinite s
  | .finite _ _, .infinite t => .infinite t
  | .infinite s, .infinite t => if s = t then .infinite s else .nan
  | _, _ => .nan

/-- The difference. -/
def sub (x y : Binary64) : Binary64 :=
  x.add y.neg

/-! ## Product and quotient -/

/-- The product.  A zero and an infinity have none. -/
def mul : Binary64 → Binary64 → Binary64
  | .finite s m, .finite t n =>
    ofRatio (s ^^ t) (units m * units n) unitsPerOne
  | .infinite s, .finite t n => if n.val = 0 then .nan else .infinite (s ^^ t)
  | .finite s m, .infinite t => if m.val = 0 then .nan else .infinite (s ^^ t)
  | .infinite s, .infinite t => .infinite (s ^^ t)
  | _, _ => .nan

/-- The quotient.  Two zeros and two infinities have none; any other quotient by
a zero is infinite. -/
def div : Binary64 → Binary64 → Binary64
  | .finite s m, .finite t n =>
    if n.val = 0 then
      if m.val = 0 then .nan else .infinite (s ^^ t)
    else
      ofRatio (s ^^ t) (units m * unitsPerOne) (units n)
  | .infinite s, .finite t _ => .infinite (s ^^ t)
  | .finite s _, .infinite t => zero (s ^^ t)
  | _, _ => .nan

instance : Neg Binary64 := ⟨neg⟩
instance : Add Binary64 := ⟨add⟩
instance : Sub Binary64 := ⟨sub⟩
instance : Mul Binary64 := ⟨mul⟩
instance : Div Binary64 := ⟨div⟩

/-- Changing the sign twice changes nothing. -/
@[simp]
protected theorem neg_neg (x : Binary64) : - -x = x := by
  cases x with
  | nan => rfl
  | infinite negative => cases negative <;> rfl
  | finite negative rank => cases negative <;> rfl

/-- A difference is the sum with the number of the other sign. -/
protected theorem sub_eq_add_neg (x y : Binary64) : x - y = x + -y :=
  rfl

end Binary64
end Lox
