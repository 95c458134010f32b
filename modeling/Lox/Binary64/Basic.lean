/-!
# Binary floating-point numbers

The numbers of Lox are the IEEE-754 numbers of 64 bits.  A number is not-a-number,
an infinity with a sign, or a finite number with a sign and a *rank*: its place
among the finite magnitudes in ascending order.  The rank of a magnitude is also
the value of the low 63 bits of its interchange format, so that the zero has rank
zero, the subnormal numbers have the ranks below {lit}`2 ^ 52`, and the rank after
the last one belongs to the infinities.

The exact magnitude of a rank is a natural number of *units* of {lit}`2 ^ -1074`,
the least positive magnitude.  All arithmetic is done on units, in natural numbers
and integers.

Main results:

- Theorem {lit}`units_of_lt`: in the first binade a rank is its own magnitude.
- Theorem {lit}`ofBits_toBits`: a number is read back from its bits.
-/

namespace Lox

/-- The count of ranks in a binade, {lit}`2 ^ 52`: one for every fraction. -/
abbrev Binary64.binadeSize : Nat :=
  0x10000000000000

/-- The rank of the infinities: 2047 binades lie below it. -/
abbrev Binary64.rankLimit : Nat :=
  0x7ff0000000000000

/-- A number: not-a-number, an infinity, or a sign with the rank of a finite
magnitude.  Both zeros are present, and there is one not-a-number. -/
inductive Binary64 where
  | nan
  | infinite (negative : Bool)
  | finite (negative : Bool) (rank : Fin Binary64.rankLimit)
deriving DecidableEq, Inhabited

namespace Binary64

/-! ## Magnitudes -/

/-- The magnitude of a rank in units of {lit}`2 ^ -1074`.  A rank of the first
binade is subnormal and counts units; every binade after the second doubles the
step. -/
def units (rank : Nat) : Nat :=
  if rank < binadeSize then
    rank
  else
    (binadeSize + rank % binadeSize) <<< (rank / binadeSize - 1)

/-- In the first binade a rank is its own magnitude. -/
theorem units_of_lt {rank : Nat} (hrank : rank < binadeSize) : units rank = rank := by
  rw [units, if_pos hrank]

@[simp]
theorem units_zero : units 0 = 0 :=
  units_of_lt (by decide)

/-- The units in the number one, {lit}`2 ^ 1074`. -/
def unitsPerOne : Nat :=
  1 <<< 1074

/-- The zero of a sign. -/
def zero (negative : Bool) : Binary64 :=
  .finite negative ⟨0, by decide⟩

/-- The number one, the first of the binade with the exponent 1023. -/
def one : Binary64 :=
  .finite false ⟨0x3ff0000000000000, by decide⟩

/-- The integer of a sign and a magnitude. -/
def signed (negative : Bool) (magnitude : Nat) : Int :=
  if negative then -magnitude else magnitude

/-! ## Interchange format -/

/-- The weight of the sign bit, {lit}`2 ^ 63`. -/
abbrev signWeight : Nat :=
  0x8000000000000000

/-- The number of the given 64 bits: the sign above the rank.  Every rank beyond
that of the infinities is not-a-number. -/
def ofBits (bits : UInt64) : Binary64 :=
  let negative := decide (signWeight ≤ bits.toNat)
  let rank := bits.toNat % signWeight
  if h : rank < rankLimit then
    .finite negative ⟨rank, h⟩
  else if rank = rankLimit then
    .infinite negative
  else
    .nan

/-- The value of a sign bit in its place. -/
def signBit : Bool → Nat
  | false => 0
  | true => signWeight

/-- The 64 bits of a number.  Not-a-number is written as the quiet one with a
clear sign and an empty payload. -/
def toBits : Binary64 → UInt64
  | .nan => 0x7ff8000000000000
  | .infinite negative => UInt64.ofNat (signBit negative + rankLimit)
  | .finite negative rank => UInt64.ofNat (signBit negative + rank)

/-- A number is read back from its bits. -/
@[simp]
theorem ofBits_toBits (x : Binary64) : ofBits x.toBits = x := by
  have hread (negative : Bool) (rank : Nat) (hrank : rank < signWeight) :
      (UInt64.ofNat (signBit negative + rank)).toNat = signBit negative + rank := by
    apply UInt64.toNat_ofNat_of_lt'
    simp only [signWeight] at hrank
    cases negative <;> simp only [signBit, signWeight, UInt64.size] <;> omega
  cases x with
  | nan => rfl
  | infinite negative => cases negative <;> rfl
  | finite negative rank =>
    have hrank := rank.isLt
    simp only [rankLimit] at hrank
    have hsmall : rank.val < signWeight := by
      simp only [signWeight]
      omega
    have hlow : (signBit negative + rank) % signWeight = rank := by
      cases negative <;> simp only [signBit, signWeight] <;> omega
    have hhigh : signWeight ≤ signBit negative + rank ↔ negative = true := by
      cases negative with
      | false =>
        simp only [signBit, signWeight, Bool.false_eq_true, iff_false]
        omega
      | true => simp [signBit, signWeight]
    simp only [ofBits, toBits, hread negative rank hsmall, hlow, hhigh]
    simp

end Binary64
end Lox
