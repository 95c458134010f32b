import Lox.Decimal.Layout
import Lox.Proofs.Decimal.ReadBack
import Lox.Proofs.Lexeme.Grammar

/-!
# The place of the point

Rounding keeps the order.  So the point of a shortest decimal is found by comparing its rank
with the ranks of the powers of ten: no point is far from the digits, and between a ten
thousandth and ten to the power of sixteen it is so near that the notation is positional.

Main results:

- Theorem {lit}`lt_point`, {lit}`point_le`: the place of the point by the ranks of the powers
  of ten.
- Theorem {lit}`digits_shortest`: a shortest decimal has digits.
- Theorem {lit}`isPositional_shortest`: which magnitudes are written in positional notation.
-/

namespace Lox

/-- The number is finite, and zero or of a magnitude of a ten thousandth at least and less
than ten to the power of sixteen. -/
def Binary64.Moderate : Binary64 → Prop
  | .finite _ rank =>
    rank.val = 0 ∨ (Binary64.unitsPerOne ≤ Binary64.units rank * Nat.pow 10 4 ∧
      Binary64.units rank < Nat.pow 10 16 * Binary64.unitsPerOne)
  | _ => False

namespace Decimal

open Binary64 (nearestRank units unitsPerOne)
open Lexeme (Digit Digits)

/-! ## Digits -/

theorem digit_of_mem_toDigits {n : Nat} {c : Char} (hc : c ∈ Nat.toDigits 10 n) : Digit c :=
  (Lexeme.isDigit_iff c).1 (Nat.isDigit_of_mem_toDigits (by decide) (by decide) hc)

/-- The digits of a natural number keep one at least when their zeros are trimmed. -/
theorem digits_trim_ofNat {n : Nat} (hn : n ≠ 0) (exponent : Int) :
    Digits (ofNat n exponent).trim.digits := by
  rcases exists_digits_eq (ofNat n exponent) with ⟨count, hdigits⟩
  constructor
  · intro hnone
    have hvalue := significand_ofNat n exponent
    rw [significand, hdigits, hnone, List.nil_append, Nat.ofDigitChars_replicate_zero,
      Nat.mul_zero] at hvalue
    exact hn hvalue.symm
  · intro c hc
    have hmem : c ∈ (ofNat n exponent).digits := by
      rw [hdigits]
      exact List.mem_append_left _ hc
    exact digit_of_mem_toDigits hmem

/-- The shortest decimal of zero is zero. -/
theorem shortest_zero : shortest 0 = zero := by
  rw [shortest, if_pos rfl]

/-- A shortest decimal has digits. -/
theorem digits_shortest (rank : Nat) : Digits (shortest rank).digits := by
  by_cases hrank : rank = 0
  · rw [hrank, shortest_zero]
    simp [zero, Digits]
    decide
  · rcases exists_shortest_eq hrank with ⟨multiple, power, hmultiple, hshortest, -⟩
    rw [hshortest]
    exact digits_trim_ofNat hmultiple _

/-! ## Comparing with powers of ten -/

/-- A natural number is no less than the power of ten of its leading digit. -/
theorem pow_length_toDigits_le {n : Nat} (hn : n ≠ 0) :
    10 ^ (Nat.toDigits 10 n).length ≤ 10 * n := by
  have hpositive : 0 < (Nat.toDigits 10 n).length := Nat.length_toDigits_pos
  obtain ⟨count, hcount⟩ : ∃ count, (Nat.toDigits 10 n).length = count + 1 :=
    ⟨_, (Nat.sub_add_cancel hpositive).symm⟩
  rw [hcount, Nat.pow_succ, Nat.mul_comm]
  apply Nat.mul_le_mul_left
  by_contra hlt
  rw [Nat.not_le] at hlt
  by_cases hzero : count = 0
  · rw [hzero] at hlt
    omega
  · have hle := (Nat.length_toDigits_le_iff (by decide) (Nat.pos_of_ne_zero hzero)).2 hlt
    omega

/-- The point stands behind as many digits as a count of steps has that is read back. -/
theorem exists_point_eq {rank : Nat} (hrank : rank ≠ 0) :
    ∃ steps place : Nat, nearestRank steps stepsPerUnit = rank ∧
      (shortest rank).point = place - 1074 ∧
      steps < Nat.pow 10 place ∧ Nat.pow 10 place ≤ 10 * steps := by
  rcases exists_shortest_eq hrank with ⟨multiple, power, hmultiple, hshortest, hnearest⟩
  have hpositive : 0 < (Nat.toDigits 10 multiple).length := Nat.length_toDigits_pos
  have hbelow := (Nat.length_toDigits_le_iff (n := multiple) (by decide) hpositive).1 le_rfl
  have hleading := pow_length_toDigits_le hmultiple
  refine ⟨_, (Nat.toDigits 10 multiple).length + power, hnearest, ?_, ?_, ?_⟩
  · rw [hshortest]
    dsimp only [trim, ofNat]
    omega
  · rw [Nat.pow_eq, Nat.pow_eq, pow_add]
    exact Nat.mul_lt_mul_of_pos_right hbelow (Nat.pow_pos (by decide))
  · rw [Nat.pow_eq, Nat.pow_eq, pow_add, ← Nat.mul_assoc]
    exact Nat.mul_le_mul_right _ hleading

/-- More steps round to no smaller number. -/
theorem nearestRank_mono_steps {steps steps' : Nat} (hle : steps ≤ steps') :
    nearestRank steps stepsPerUnit ≤ nearestRank steps' stepsPerUnit :=
  Binary64.nearestRank_mono stepsPerUnit_pos stepsPerUnit_pos (Nat.mul_le_mul_right _ hle)

/-- Above the rank of a power of ten the point stands behind that power. -/
theorem lt_point {rank power : Nat} (hlt : nearestRank (Nat.pow 10 power) stepsPerUnit < rank) :
    (power : Int) - 1074 < (shortest rank).point := by
  rcases exists_point_eq (Nat.ne_zero_of_lt hlt) with ⟨steps, place, rfl, hpoint, hbelow, -⟩
  have hplace : power < place := by
    by_contra hge
    have hpowers : Nat.pow 10 place ≤ Nat.pow 10 power :=
      Nat.pow_le_pow_right (by decide) (Nat.le_of_not_lt hge)
    exact absurd (nearestRank_mono_steps (hbelow.le.trans hpowers)) (Nat.not_le_of_lt hlt)
  omega

/-- Below the rank of a power of ten the point stands no farther than that power. -/
theorem point_le {rank power : Nat} (hrank : rank ≠ 0)
    (hlt : rank < nearestRank (Nat.pow 10 power) stepsPerUnit) :
    (shortest rank).point ≤ power - 1074 := by
  rcases exists_point_eq hrank with ⟨steps, place, rfl, hpoint, -, hleading⟩
  have hplace : place ≤ power := by
    by_contra hgt
    have hpowers : Nat.pow 10 (power + 1) ≤ Nat.pow 10 place :=
      Nat.pow_le_pow_right (by decide) (Nat.lt_of_not_le hgt)
    have hsteps : Nat.pow 10 power ≤ steps := by
      have hstep : Nat.pow 10 (power + 1) = Nat.pow 10 power * 10 := rfl
      omega
    exact absurd (nearestRank_mono_steps hsteps) (Nat.not_le_of_lt hlt)
  omega

/-! ## Bounds -/

/-- No point is far from the digits. -/
theorem point_bounds {rank : Nat} (hlimit : rank < Binary64.rankLimit) :
    -324 < (shortest rank).point ∧ (shortest rank).point ≤ 309 := by
  by_cases hrank : rank = 0
  · rw [hrank, shortest_zero]
    decide
  have hleast : nearestRank (Nat.pow 10 750) stepsPerUnit = 0 := by decide +kernel
  have hgreatest : Binary64.rankLimit ≤ nearestRank (Nat.pow 10 1383) stepsPerUnit := by
    decide +kernel
  constructor
  · exact lt_point (hleast.trans_lt (Nat.pos_of_ne_zero hrank))
  · exact point_le hrank (hlimit.trans_le hgreatest)

/-- From a ten thousandth on, at most three zeros stand between the point and the digits. -/
theorem lt_point_of_unitsPerOne_le {rank : Nat}
    (hleast : unitsPerOne ≤ units rank * Nat.pow 10 4) : -4 < (shortest rank).point := by
  have hdecimal : shortest (nearestRank (Nat.pow 10 1070) stepsPerUnit) = ⟨['1'], -3⟩ := by
    decide +kernel
  have hpower : unitsPerOne * stepsPerUnit = Nat.pow 10 1070 * Nat.pow 10 4 := by
    decide +kernel
  have hle : nearestRank (Nat.pow 10 1070) stepsPerUnit ≤ rank := by
    rw [← Binary64.nearestRank_units rank stepsPerUnit_pos]
    apply nearestRank_mono_steps
    apply Nat.le_of_mul_le_mul_right _ (show 0 < Nat.pow 10 4 by decide)
    calc Nat.pow 10 1070 * Nat.pow 10 4 = unitsPerOne * stepsPerUnit := hpower.symm
      _ ≤ units rank * Nat.pow 10 4 * stepsPerUnit := Nat.mul_le_mul_right _ hleast
      _ = units rank * stepsPerUnit * Nat.pow 10 4 := Nat.mul_right_comm _ _ _
  rcases hle.eq_or_lt with heq | hlt
  · rw [← heq, hdecimal]
    decide
  · exact lt_point hlt

/-- Below ten to the power of sixteen, the point stands behind sixteen digits at most. -/
theorem point_le_of_units_lt {rank : Nat} (hrank : rank ≠ 0)
    (hgreatest : units rank < Nat.pow 10 16 * unitsPerOne) : (shortest rank).point ≤ 16 := by
  have hunits : units (nearestRank (Nat.pow 10 1090) stepsPerUnit) =
      Nat.pow 10 16 * unitsPerOne := by decide +kernel
  rw [← hunits] at hgreatest
  exact point_le hrank (Binary64.units_strictMono.lt_iff_lt.1 hgreatest)

/-- A moderate magnitude is written in positional notation. -/
theorem isPositional_shortest {negative : Bool} {rank : Fin Binary64.rankLimit}
    (hmoderate : Binary64.Moderate (.finite negative rank)) :
    NumberFormat.lox.isPositional (shortest rank).point = true := by
  have hpositional (point : Int) :
      NumberFormat.lox.isPositional point = true ↔ -4 < point ∧ point ≤ 16 := by
    rw [NumberFormat.isPositional, Bool.and_eq_true, decide_eq_true_iff, decide_eq_true_iff]
    exact Iff.rfl
  rw [hpositional]
  by_cases hrank : rank.val = 0
  · rw [hrank, shortest_zero]
    decide
  · rcases hmoderate with hzero | ⟨hleast, hgreatest⟩
    · exact absurd hzero hrank
    · exact ⟨lt_point_of_unitsPerOne_le hleast, point_le_of_units_lt hrank hgreatest⟩

end Decimal
end Lox
