import Lox.Binary64.Basic
import Mathlib.Tactic.Ring
import Mathlib.Order.Monotone.Basic

/-!
# The magnitudes of ranks

A rank splits into a shift and a significand of 53 binary digits, and its magnitude is the
significand shifted by the shift.  Only in the first binade, where nothing is shifted, is a
significand short.  So a greater rank has a greater magnitude, and the step to the next
magnitude is the weight of the last digit.

Main results:

- Theorem {lit}`units_of_significand`: the magnitude of a shift and a significand.
- Theorem {lit}`exists_significand`: every rank has a shift and a significand.
- Theorem {lit}`units_strictMono`: a greater rank has a greater magnitude.
-/

namespace Lox
namespace Binary64

/-- The shift and the significand of a rank: a significand has 53 binary digits, fewer only
where nothing is shifted. -/
structure Significand (shift significand : Nat) : Prop where
  le : significand ≤ 2 * binadeSize
  full : shift = 0 ∨ binadeSize ≤ significand

/-- The magnitude of a shift and a significand.  The significand that is one too large is the
first of the next binade. -/
theorem units_of_significand {shift significand : Nat}
    (hsplit : Significand shift significand) :
    units (shift * binadeSize + significand) = significand * 2 ^ shift := by
  rcases hsplit with ⟨hle, hfull⟩
  simp only [binadeSize] at *
  by_cases hsmall : significand < 0x10000000000000
  · have hshift : shift = 0 := by omega
    subst hshift
    rw [units_of_lt (by simp only [binadeSize]; omega)]
    omega
  · have hrank : ¬shift * 0x10000000000000 + significand < 0x10000000000000 := by omega
    rw [units, if_neg hrank, Nat.shiftLeft_eq]
    simp only [binadeSize]
    by_cases hlast : significand = 2 * 0x10000000000000
    · have hquotient : (shift * 0x10000000000000 + significand) / 0x10000000000000 - 1 =
          shift + 1 := by omega
      have hremainder : (shift * 0x10000000000000 + significand) % 0x10000000000000 = 0 := by
        omega
      rw [hquotient, hremainder, hlast]
      ring
    · have hquotient : (shift * 0x10000000000000 + significand) / 0x10000000000000 - 1 =
          shift := by omega
      have hremainder : 0x10000000000000 +
          (shift * 0x10000000000000 + significand) % 0x10000000000000 = significand := by
        omega
      rw [hquotient, hremainder]

/-- Every rank has a shift and a significand that is not too large. -/
theorem exists_significand (rank : Nat) :
    ∃ shift significand, rank = shift * binadeSize + significand ∧
      significand < 2 * binadeSize ∧ Significand shift significand := by
  by_cases hsmall : rank < binadeSize
  · refine ⟨0, rank, by simp, ?_, ?_, Or.inl rfl⟩
    all_goals
      simp only [binadeSize] at *
      omega
  · refine ⟨rank / binadeSize - 1, binadeSize + rank % binadeSize, ?_, ?_, ?_, Or.inr ?_⟩
    all_goals
      simp only [binadeSize] at *
      omega

/-- The next magnitude is one step of the last digit away, and further where the binade
ends. -/
theorem units_succ_of_significand {shift significand : Nat}
    (hsplit : Significand shift significand) :
    (significand + 1) * 2 ^ shift ≤ units (shift * binadeSize + significand + 1) ∧
      (significand < 2 * binadeSize →
        units (shift * binadeSize + significand + 1) = (significand + 1) * 2 ^ shift) := by
  have hsame (hlt : significand < 2 * binadeSize) :
      units (shift * binadeSize + significand + 1) = (significand + 1) * 2 ^ shift := by
    rw [Nat.add_assoc]
    apply units_of_significand
    exact ⟨hlt, hsplit.full.imp_right fun hfull => Nat.le_succ_of_le hfull⟩
  refine ⟨?_, hsame⟩
  by_cases hlt : significand < 2 * binadeSize
  · exact (hsame hlt).ge
  · -- The next rank is the second one of the next binade.
    have hlast : significand = 2 * binadeSize := Nat.le_antisymm hsplit.le (Nat.le_of_not_lt hlt)
    have hnext : shift * binadeSize + significand + 1 =
        (shift + 1) * binadeSize + (binadeSize + 1) := by
      rw [hlast]
      ring
    have hsplit' : Significand (shift + 1) (binadeSize + 1) :=
      ⟨by decide, Or.inr (Nat.le_succ _)⟩
    rw [hnext, units_of_significand hsplit', hlast]
    calc (2 * binadeSize + 1) * 2 ^ shift
        ≤ (2 * binadeSize + 2) * 2 ^ shift := Nat.mul_le_mul_right _ (Nat.le_succ _)
      _ = (binadeSize + 1) * 2 ^ (shift + 1) := by ring

/-- The magnitude before is one step of the last digit away, unless the binade begins. -/
theorem units_pred_of_significand {shift significand lower : Nat}
    (hsplit : Significand shift significand)
    (hlower : shift * binadeSize + significand = lower + 1) :
    units lower + 2 ^ shift = significand * 2 ^ shift ∨
      (shift ≠ 0 ∧ significand = binadeSize) := by
  by_cases hfirst : shift ≠ 0 ∧ significand = binadeSize
  · exact Or.inr hfirst
  left
  rcases hsplit with ⟨hle, hfull⟩
  have hpos : 0 < significand := by
    rcases hfull with rfl | hfull
    · omega
    · exact Nat.lt_of_lt_of_le (by decide) hfull
  obtain ⟨before, rfl⟩ : ∃ before, significand = before + 1 := ⟨significand - 1, by omega⟩
  have hrank : lower = shift * binadeSize + before := by omega
  have hsplit' : Significand shift before := ⟨by omega, by omega⟩
  rw [hrank, units_of_significand hsplit']
  ring

/-- A greater rank has a greater magnitude. -/
theorem units_strictMono : StrictMono units := by
  apply strictMono_nat_of_lt_succ
  intro rank
  rcases exists_significand rank with ⟨shift, significand, rfl, -, hsplit⟩
  rw [units_of_significand hsplit]
  have hnext := (units_succ_of_significand hsplit).1
  have hpos : 0 < 2 ^ shift := Nat.two_pow_pos shift
  rw [Nat.succ_mul] at hnext
  omega

theorem units_pos {rank : Nat} (hrank : rank ≠ 0) : 0 < units rank :=
  Nat.zero_lt_of_lt (units_strictMono (Nat.pos_of_ne_zero hrank))

end Binary64
end Lox
