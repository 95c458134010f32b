import Lox.Proofs.Decimal.Optimal

/-!
# Which notation, and where there is a point

The place of the point of a shortest decimal tells how great the number is: from a ten
thousandth to ten to the power of sixteen it is near enough for positional notation, and
nowhere else.  The last digit tells whether the number is an integer: it counts a power of ten
below one exactly if the number is none.

Main results:

- Theorem {lit}`isPositional_shortest_iff`: which magnitudes are written in positional notation.
- Theorem {lit}`Binary64.dvd_units_nearestRank`: an integer is rounded to an integer.
- Theorem {lit}`exponent_shortest_nonneg_iff`: which magnitudes are integers.
-/

namespace Lox

namespace Binary64

/-! ## Rounding integers -/

/-- A quotient without a remainder is not rounded. -/
theorem roundDiv_mul (n : Nat) {den : Nat} (hden : 0 < den) : roundDiv (n * den) den = n := by
  simp [roundDiv, Nat.mul_div_cancel n hden, hden]

/-- An integer is rounded to an integer. -/
theorem dvd_units_nearestRank (n : Nat) :
    unitsPerOne ∣ units (nearestRank (n * unitsPerOne) 1) := by
  have hpower (depth : Nat) (hone : unitsPerOne = 2 ^ depth) :
      unitsPerOne ∣ units (nearestRank (n * unitsPerOne) 1) := by
    have hsplit := significand_nearestRank (n * unitsPerOne) 1
    rw [nearestRank_eq, units_of_significand hsplit, Nat.one_mul]
    generalize shiftOf (n * unitsPerOne) 1 = shift
    rcases Nat.le_total shift depth with hle | hge
    · -- Nothing is lost where the shift stops short of the point.
      obtain ⟨more, rfl⟩ := Nat.exists_eq_add_of_le' hle
      have hvalue : n * unitsPerOne = n * 2 ^ more * 2 ^ shift := by
        rw [hone, pow_add, Nat.mul_assoc]
      rw [hvalue, roundDiv_mul _ (Nat.two_pow_pos shift), ← hvalue]
      exact Nat.dvd_mul_left unitsPerOne n
    · rw [hone]
      exact Nat.dvd_mul_left_of_dvd (Nat.pow_dvd_pow 2 hge) _
  have hone (depth : Nat) : 1 <<< depth = 2 ^ depth := by rw [Nat.shiftLeft_eq, Nat.one_mul]
  exact hpower _ (hone 1074)

/-- The magnitudes that are integers, in units. -/
theorem exists_exact_eq_iff (rank : Nat) :
    (∃ n : Nat, exact rank = n) ↔ unitsPerOne ∣ units rank := by
  have hone := unitsPerOne_pos.ne'
  constructor
  · rintro ⟨n, hn⟩
    rw [exact, div_eq_iff hone] at hn
    exact ⟨n, by rw [Nat.mul_comm]; exact_mod_cast hn⟩
  · rintro ⟨n, hn⟩
    refine ⟨n, ?_⟩
    rw [exact, hn, div_eq_iff hone, Nat.mul_comm]
    push_cast
    rfl

end Binary64

namespace Decimal

open Binary64 (exact nearestRank rankLimit units unitsPerOne Moderate)

/-! ## Integers -/

/-- The last digit of the shortest decimal of an integer counts ones at least. -/
theorem exponent_nonneg_of_dvd {rank : Fin rankLimit} (hrank : rank.val ≠ 0)
    (hdvd : unitsPerOne ∣ units rank) : 0 ≤ (shortest rank).exponent := by
  rcases exists_coarsest hrank with ⟨multiple, power, hcoarsest, hshortest, -⟩
  have hgrid (depth : Nat) (hdepth : unitsPerOne * stepsPerUnit = Nat.pow 10 depth) :
      depth ≤ power := by
    obtain ⟨n, hn⟩ := hdvd
    have hsteps : units rank * stepsPerUnit = n * Nat.pow 10 depth := by
      rw [hn, ← hdepth]
      ring
    have hpositive := units_mul_stepsPerUnit_ne_zero hrank
    by_contra hlt
    have hcount : depth < digitCount (units rank * stepsPerUnit) := by
      by_contra hge
      have hbelow := lt_pow_digitCount (units rank * stepsPerUnit)
      have hpowers : 10 ^ digitCount (units rank * stepsPerUnit) ≤ 10 ^ depth :=
        Nat.pow_le_pow_right (by decide) (Nat.le_of_not_lt hge)
      have hleast : Nat.pow 10 depth ≤ n * Nat.pow 10 depth := by
        apply Nat.le_mul_of_pos_left
        rw [hsteps] at hpositive
        exact Nat.pos_of_ne_zero (left_ne_zero_of_mul hpositive)
      rw [← hsteps, Nat.pow_eq] at hleast
      omega
    have hnone := hcoarsest.not_readsBack depth (Nat.lt_of_not_le hlt) hcount n
    rw [← hsteps, readsBack_self] at hnone
    cases hnone
  have hpower := hgrid _ unitsPerOne_mul_stepsPerUnit
  rcases exists_trim_eq (ofNat multiple (power - 1074)) with ⟨count, -, hexponent⟩
  rw [hshortest, hexponent, exponent_ofNat]
  omega

/-- If the last digit of a shortest decimal counts ones at least, the magnitude is an
integer. -/
theorem dvd_of_exponent_nonneg {rank : Fin rankLimit}
    (hexponent : 0 ≤ (shortest rank).exponent) : unitsPerOne ∣ units rank := by
  have hnearest : nearestRank ((shortest rank).significand *
      Nat.pow 10 (shortest rank).exponent.toNat * unitsPerOne) 1 = rank := by
    have hround := ofDecimal_shortest false rank
    have hden : (-(shortest rank).exponent).toNat = 0 := by omega
    rw [Binary64.ofDecimal, hden] at hround
    exact Binary64.nearestRank_of_ofRatio_eq_finite hround
  rw [← hnearest]
  exact Binary64.dvd_units_nearestRank _

/-- The last digit of a shortest decimal counts ones at least exactly if the magnitude is an
integer. -/
theorem exponent_shortest_nonneg_iff (rank : Fin rankLimit) :
    0 ≤ (shortest rank).exponent ↔ ∃ n : Nat, exact rank = n := by
  rw [Binary64.exists_exact_eq_iff]
  constructor
  · exact dvd_of_exponent_nonneg
  · intro hdvd
    by_cases hrank : rank.val = 0
    · rw [hrank, shortest_zero]
      decide
    · exact exponent_nonneg_of_dvd hrank hdvd

/-! ## Positional notation -/

/-- Below a ten thousandth the point stands too far to the left. -/
theorem point_le_of_units_mul_lt {rank : Nat} (hrank : rank ≠ 0)
    (hsmall : units rank * Nat.pow 10 4 < unitsPerOne) : (shortest rank).point ≤ -4 := by
  have hpower : unitsPerOne ≤
      units (nearestRank (Nat.pow 10 1070) stepsPerUnit) * Nat.pow 10 4 := by decide +kernel
  have hunits := Nat.lt_of_mul_lt_mul_right (hsmall.trans_le hpower)
  exact point_le hrank (Binary64.units_strictMono.lt_iff_lt.1 hunits)

/-- From ten to the power of sixteen on the point stands too far to the right. -/
theorem lt_point_of_le_units {rank : Nat} (hgreat : Nat.pow 10 16 * unitsPerOne ≤ units rank) :
    16 < (shortest rank).point := by
  have hunits : units (nearestRank (Nat.pow 10 1090) stepsPerUnit) =
      Nat.pow 10 16 * unitsPerOne := by decide +kernel
  have hdecimal : shortest (nearestRank (Nat.pow 10 1090) stepsPerUnit) = ⟨['1'], 17⟩ := by
    decide +kernel
  rw [← hunits] at hgreat
  rcases (Binary64.units_strictMono.le_iff_le.1 hgreat).eq_or_lt with heq | hlt
  · rw [← heq, hdecimal]
    decide
  · exact lt_point hlt

/-- The moderate magnitudes are those that are written in positional notation. -/
theorem isPositional_shortest_iff (negative : Bool) (rank : Fin rankLimit) :
    NumberFormat.lox.isPositional (shortest rank).point = true ↔
      Moderate (.finite negative rank) := by
  constructor
  · intro hpositional
    rw [NumberFormat.isPositional, Bool.and_eq_true, decide_eq_true_iff,
      decide_eq_true_iff] at hpositional
    have hleft : -4 < (shortest rank).point := hpositional.1
    have hright : (shortest rank).point ≤ 16 := hpositional.2
    by_cases hrank : rank.val = 0
    · exact .inl hrank
    · refine .inr ⟨?_, ?_⟩
      · by_contra hsmall
        have hpoint := point_le_of_units_mul_lt hrank (Nat.lt_of_not_le hsmall)
        omega
      · by_contra hgreat
        have hpoint := lt_point_of_le_units (Nat.le_of_not_lt hgreat)
        omega
  · exact isPositional_shortest

end Decimal

namespace Binary64

/-- The moderate numbers are zero and the magnitudes from {lit}`10 ^ -4` to
{lit}`10 ^ 16`. -/
theorem moderate_iff (negative : Bool) (rank : Fin rankLimit) :
    Moderate (.finite negative rank) ↔
      exact rank = 0 ∨ (1 / 10 ^ 4 ≤ exact rank ∧ exact rank < 10 ^ 16) := by
  have hone := unitsPerOne_pos
  have hleast : 1 / 10 ^ 4 ≤ exact rank ↔ unitsPerOne ≤ units rank * Nat.pow 10 4 := by
    rw [exact, div_le_div_iff₀ (by norm_num) hone, one_mul, Nat.pow_eq]
    exact_mod_cast Iff.rfl
  have hgreatest : exact rank < 10 ^ 16 ↔ units rank < Nat.pow 10 16 * unitsPerOne := by
    rw [exact, div_lt_iff₀ hone, Nat.pow_eq]
    exact_mod_cast Iff.rfl
  rw [exact_eq_zero_iff, hleast, hgreatest]
  exact Iff.rfl

end Binary64
end Lox
