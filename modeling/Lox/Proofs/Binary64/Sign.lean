import Lox.Binary64.Arithmetic
import Lox.Proofs.Binary64.Exact

/-!
# Signs, zeros and infinities

Every number but not-a-number is a magnitude with a sign bit.  The numbers without a magnitude of
their own are the two zeros and the two infinities, and their sign is all that tells them apart.

Main results:

- Theorem {lit}`neg_magnitude`: a number with its sign bit set is the negation of its magnitude.
- Theorem {lit}`isNegative_ofBits`: the sign is the highest bit.
- Theorem {lit}`Rounds.isNegative_eq`: rounding keeps the sign.
-/

namespace Lox
namespace Binary64

/-! ## Signs and magnitudes -/

/-- Whether the sign bit is set. -/
def isNegative : Binary64 → Bool
  | .nan => false
  | .infinite negative => negative
  | .finite negative _ => negative

/-- The number without its sign. -/
def magnitude : Binary64 → Binary64
  | .nan => .nan
  | .infinite _ => .infinite false
  | .finite _ rank => .finite false rank

/-- A number with its sign bit set is the negation of its magnitude. -/
theorem neg_magnitude {x : Binary64} (hnegative : x.isNegative = true) : -x.magnitude = x := by
  cases x with
  | nan => rfl
  | infinite negative =>
      rw [show negative = true from hnegative]
      rfl
  | finite negative rank =>
      rw [show negative = true from hnegative]
      rfl

/-- A number without a sign is its magnitude. -/
theorem magnitude_eq_self {x : Binary64} (hnegative : x.isNegative = false) :
    x.magnitude = x := by
  cases x with
  | nan => rfl
  | infinite negative =>
      rw [show negative = false from hnegative]
      rfl
  | finite negative rank =>
      rw [show negative = false from hnegative]
      rfl

theorem isNegative_magnitude (x : Binary64) : x.magnitude.isNegative = false := by
  cases x <;> rfl

theorem ne_nan_of_toRat? {x : Binary64} {q : ℚ} (hq : x.toRat? = some q) : x ≠ .nan := by
  rintro rfl
  cases hq

/-- The value of the magnitude is the magnitude of the value. -/
theorem toRat?_magnitude {x : Binary64} {q : ℚ} (hq : x.toRat? = some q) :
    x.magnitude.toRat? = some |q| := by
  cases x with
  | finite negative rank =>
      rw [← Option.some_inj.1 hq, abs_withSign, abs_of_nonneg (exact_nonneg rank)]
      rfl
  | _ => cases hq

/-- A number without a sign has a value that is its own magnitude. -/
theorem abs_eq_self_of_toRat? {x : Binary64} {q : ℚ} (hq : x.toRat? = some q)
    (hnegative : x.isNegative = false) : |q| = q := by
  have hmagnitude := toRat?_magnitude hq
  rw [magnitude_eq_self hnegative, hq, Option.some_inj] at hmagnitude
  exact hmagnitude.symm

/-- The sign of a number is the highest one of its bits. -/
theorem isNegative_ofBits {bits : UInt64} (hnumber : ofBits bits ≠ .nan) :
    (ofBits bits).isNegative = decide (signWeight ≤ bits.toNat) := by
  unfold ofBits at *
  dsimp only at *
  split at hnumber
  · rename_i hfinite
    rw [dif_pos hfinite, isNegative]
  · rename_i hlarge
    split at hnumber
    · rename_i hinfinite
      rw [dif_neg hlarge, if_pos hinfinite, isNegative]
    · exact absurd rfl hnumber

/-- The sign of a number is its uppermost bit. -/
theorem isNegative_ofBits_eq_false_iff {bits : UInt64} (hnumber : ofBits bits ≠ .nan) :
    (ofBits bits).isNegative = false ↔ bits.toNat < signWeight := by
  rw [isNegative_ofBits hnumber, decide_eq_false_iff_not, Nat.not_le]

/-- Rounding keeps the sign. -/
theorem Rounds.isNegative_eq {negative : Bool} {q : ℚ} {x : Binary64}
    (hrounds : Rounds negative q x) : x.isNegative = negative := by
  cases hrounds <;> rfl

/-- Rounding commutes with a change of the sign. -/
theorem neg_ofRatio (negative : Bool) (num den : Nat) :
    -ofRatio negative num den = ofRatio (!negative) num den := by
  unfold ofRatio
  dsimp only
  split <;> rfl

/-! ## Zeros and infinities -/

/-- The number is one of the two zeros. -/
def isZero : Binary64 → Bool
  | .finite _ rank => decide (rank.val = 0)
  | _ => false

/-- The number is one of the two infinities. -/
def isInfinite : Binary64 → Bool
  | .infinite _ => true
  | _ => false

/-- A zero is known by its sign. -/
theorem eq_zero_of_isZero {x : Binary64} (hzero : x.isZero = true) : x = .zero x.isNegative := by
  cases x with
  | finite negative rank =>
      rw [isZero, decide_eq_true_iff] at hzero
      have hrank : rank = ⟨0, by decide⟩ := Fin.ext hzero
      rw [hrank]
      rfl
  | _ => cases hzero

/-- An infinity is known by its sign. -/
theorem eq_infinite_of_isInfinite {x : Binary64} (hinfinite : x.isInfinite = true) :
    x = .infinite x.isNegative := by
  cases x with
  | infinite negative => rfl
  | _ => cases hinfinite

/-- A number with a rational value is a zero exactly if its value is zero. -/
theorem isZero_iff_of_toRat? {x : Binary64} {q : ℚ} (hq : x.toRat? = some q) :
    x.isZero = true ↔ q = 0 := by
  cases x with
  | finite negative rank =>
      rw [← Option.some_inj.1 hq, withSign_eq_zero_iff, exact_eq_zero_iff, isZero,
        decide_eq_true_iff]
  | _ => cases hq

/-- A number with neither of the other values has a rational one. -/
theorem exists_toRat?_eq {x : Binary64} (hnan : x ≠ .nan) (hinfinite : ¬x.isInfinite = true) :
    ∃ q, x.toRat? = some q := by
  cases x with
  | nan => exact absurd rfl hnan
  | infinite negative => exact absurd rfl hinfinite
  | finite negative rank => exact ⟨_, rfl⟩

end Binary64
end Lox
