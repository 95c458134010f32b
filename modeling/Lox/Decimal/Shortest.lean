import Lox.Binary64.Rounding
import Lox.Decimal.Basic

/-!
# The shortest decimal of a number

The decimal of a finite number has the fewest digits that are read back as the
number, and of the decimals with so few digits it is the nearest to the number.

A unit of {lit}`2 ^ -1074` is {lit}`5 ^ 1074` steps of {lit}`10 ^ -1074`, so every
magnitude is a natural number of these steps.  The decimals with a given count of
digits are the multiples of a power of ten there.  The numbers that are read back
as one number lie side by side, hence a multiple is among them only if one of the
two multiples next to the magnitude is.

Main results:

- Theorem {lit}`neighbour?_eq_none_iff`: no multiple is chosen exactly if neither
  neighbour is read back.
- Theorem {lit}`coarsest_zero`: at the finest step the magnitude itself is taken.
-/

namespace Lox
namespace Decimal

/-- The steps of {lit}`10 ^ -1074` in one unit of {lit}`2 ^ -1074`. -/
def stepsPerUnit : Nat :=
  Nat.pow 5 1074

/-- The given count of steps is read back as the number of the given rank. -/
def readsBack (rank steps : Nat) : Bool :=
  Binary64.nearestRank steps stepsPerUnit == rank

/-- Of the multiples {lit}`below` and the next one of {lit}`grid`, whichever is
nearer to {lit}`steps`; of two that are equally near, the even one. -/
def nearerMultiple (steps grid below : Nat) : Nat :=
  let middle := (2 * below + 1) * grid
  if 2 * steps < middle then
    below
  else if middle < 2 * steps then
    below + 1
  else
    below + below % 2

/-- Of the two multiples of {lit}`grid` next to {lit}`steps`, the one that is read
back as the rank, or the nearer one if both are.  The result counts grid steps. -/
def neighbour? (rank steps grid : Nat) : Option Nat :=
  let below := steps / grid
  if readsBack rank (below * grid) then
    if readsBack rank ((below + 1) * grid) then
      some (nearerMultiple steps grid below)
    else
      some below
  else if readsBack rank ((below + 1) * grid) then
    some (below + 1)
  else
    none

/-- No multiple is chosen exactly if neither neighbour is read back. -/
theorem neighbour?_eq_none_iff (rank steps grid : Nat) :
    neighbour? rank steps grid = none ↔
      readsBack rank (steps / grid * grid) = false ∧
        readsBack rank ((steps / grid + 1) * grid) = false := by
  unfold neighbour?
  dsimp only
  generalize readsBack rank (steps / grid * grid) = below
  generalize readsBack rank ((steps / grid + 1) * grid) = above
  cases below <;> cases above <;> simp

/-- The coarsest grid of a power of ten, at most the given one, on which a multiple
is chosen: the multiple and the power.  The finest grid holds the magnitude itself. -/
def coarsest (choose : Nat → Option Nat) (steps : Nat) : Nat → Nat × Nat
  | 0 => (steps, 0)
  | power + 1 =>
    match choose (Nat.pow 10 (power + 1)) with
    | some multiple => (multiple, power + 1)
    | none => coarsest choose steps power

/-- On the finest grid the magnitude itself is chosen. -/
@[simp]
theorem coarsest_zero (choose : Nat → Option Nat) (steps : Nat) :
    coarsest choose steps 0 = (steps, 0) :=
  rfl

/-- A multiple that is read back as the rank, on the coarsest grid that holds one, and
the power of ten of that grid.  The search starts at the power of the leading digit
of the magnitude, where a multiple has one digit. -/
def search (rank steps : Nat) : Nat × Nat :=
  coarsest (neighbour? rank steps) steps ((Nat.toDigits 10 steps).length - 1)

/-- The shortest decimal of the magnitude of a rank. -/
def shortest (rank : Nat) : Decimal :=
  if rank = 0 then
    zero
  else
    let found := search rank (Binary64.units rank * stepsPerUnit)
    (ofNat found.1 (found.2 - 1074)).trim

end Decimal
end Lox
