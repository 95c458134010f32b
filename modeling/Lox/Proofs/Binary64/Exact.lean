import Lox.Proofs.Binary64.Nearest
import Mathlib.Algebra.Order.Field.Power
import Mathlib.Data.Rat.Cast.Order
import Mathlib.Tactic.FieldSimp
import Mathlib.Tactic.Linarith
import Mathlib.Tactic.Positivity

/-!
# Correct rounding

A rational number rounds to the nearest finite number, and of two that are equally near to the
one whose last bit is even.  From halfway between the largest finite magnitude and
{lit}`2 ^ 1024` on it rounds to an infinity.  This rule speaks of all finite numbers and of none
of the steps in which a quotient is rounded; it leaves no choice, and rounding follows it.

Main results:

- Theorem {lit}`Rounds.unique`: a rational number rounds to one number.
- Theorem {lit}`Rounds.between`: the rational numbers that round to a number lie side by side.
- Theorem {lit}`rounds_ofRatio`, {lit}`rounds_ofDecimal`: quotients and decimals are rounded
  correctly.
- Theorem {lit}`Rounds.eq_infinite_iff`, {lit}`Rounds.eq_zero_iff`: the least magnitude that is
  infinite, and the greatest one that is zero.
-/

namespace Lox
namespace Binary64

/-! ## Exact magnitudes -/

/-- The magnitude of a rank, as a rational number. -/
def exact (rank : Nat) : ℚ :=
  units rank / unitsPerOne

/-- One is two to the power of 1074 units. -/
theorem cast_unitsPerOne : (unitsPerOne : ℚ) = 2 ^ 1074 := by
  have hpower (count : Nat) : ((1 <<< count : ℕ) : ℚ) = 2 ^ count := by
    rw [Nat.shiftLeft_eq, Nat.one_mul, Nat.cast_pow, Nat.cast_ofNat]
  exact hpower 1074

theorem unitsPerOne_pos : (0 : ℚ) < unitsPerOne := by
  rw [cast_unitsPerOne]
  exact pow_pos two_pos 1074

/-- Greater ranks are greater numbers. -/
theorem exact_strictMono : StrictMono exact := by
  intro rank rank' hlt
  have hunits : (units rank : ℚ) < units rank' := by exact_mod_cast units_strictMono hlt
  exact div_lt_div_of_pos_right hunits unitsPerOne_pos

@[simp]
theorem exact_zero : exact 0 = 0 := by
  simp [exact]

theorem exact_nonneg (rank : Nat) : 0 ≤ exact rank := by
  rw [← exact_zero]
  exact exact_strictMono.monotone (Nat.zero_le rank)

theorem exact_eq_zero_iff (rank : Nat) : exact rank = 0 ↔ rank = 0 := by
  rw [← exact_zero, exact_strictMono.injective.eq_iff]

/-- The least positive magnitude. -/
theorem exact_one : exact 1 = 1 / 2 ^ 1074 := by
  rw [exact, cast_unitsPerOne, units_of_lt (by decide), Nat.cast_one]

/-- A magnitude with a sign. -/
def withSign (negative : Bool) (q : ℚ) : ℚ :=
  if negative then -q else q

@[simp]
theorem abs_withSign (negative : Bool) (q : ℚ) : |withSign negative q| = |q| := by
  cases negative with
  | false => rfl
  | true => exact abs_neg q

/-- A sign distributes over a difference. -/
@[simp]
theorem withSign_sub (negative : Bool) (q r : ℚ) :
    withSign negative q - withSign negative r = withSign negative (q - r) := by
  cases negative with
  | false => rfl
  | true => exact neg_sub_neg q r |>.trans (neg_sub q r).symm

@[simp]
theorem withSign_eq_zero_iff (negative : Bool) (q : ℚ) : withSign negative q = 0 ↔ q = 0 := by
  cases negative with
  | false => exact Iff.rfl
  | true => exact neg_eq_zero

/-- The rational number that a finite number is. -/
def toRat? : Binary64 → Option ℚ
  | .finite negative rank => some (withSign negative (exact rank))
  | _ => none

/-- Halfway between the largest finite magnitude and {lit}`2 ^ 1024`. -/
def overflow : ℚ :=
  2 ^ 1024 - 2 ^ 970

/-- Overflow begins halfway between the greatest number and the one that would follow it. -/
theorem exact_add_exact_eq_overflow :
    exact (rankLimit - 1) + exact rankLimit = 2 * overflow := by
  have hsum (limit gap : Nat) (hunits : units (rankLimit - 1) + units rankLimit +
      2 * (Nat.pow 2 gap * unitsPerOne) = 2 * (Nat.pow 2 limit * unitsPerOne)) :
        exact (rankLimit - 1) + exact rankLimit = 2 * ((2 : ℚ) ^ limit - 2 ^ gap) := by
    rw [Nat.pow_eq, Nat.pow_eq] at hunits
    have hcast : (units (rankLimit - 1) + units rankLimit + 2 * (2 ^ gap * unitsPerOne) : ℚ) =
        2 * (2 ^ limit * unitsPerOne) := by exact_mod_cast hunits
    rw [exact, exact, ← add_div, div_eq_iff unitsPerOne_pos.ne']
    linarith only [hcast]
  exact hsum 1024 970 (by decide +kernel)

/-! ## The rule -/

/-- The number of the given sign to which a magnitude rounds. -/
inductive Rounds (negative : Bool) (q : ℚ) : Binary64 → Prop where
  | infinite (hlarge : overflow ≤ q) : Rounds negative q (.infinite negative)
  | finite {rank : Fin rankLimit} (hsmall : q < overflow)
      (hnearest : ∀ other : Fin rankLimit, |q - exact rank| ≤ |q - exact other|)
      (heven : ∀ other : Fin rankLimit, other ≠ rank →
        |q - exact rank| = |q - exact other| → rank.val % 2 = 0) :
      Rounds negative q (.finite negative rank)

/-- Below the middle of two numbers the lesser one is nearer, and equally near in the middle
only. -/
theorem abs_sub_le_of_two_mul_le {a b q : ℚ} (hlt : a < b) (hle : 2 * q ≤ a + b) :
    |q - a| ≤ |q - b| ∧ (|q - a| = |q - b| → 2 * q = a + b) := by
  have hb : |q - b| = b - q := by
    rw [abs_sub_comm, abs_of_nonneg]
    linarith
  rw [hb]
  constructor
  · rw [abs_le]
    constructor <;> linarith
  · intro heq
    rcases abs_cases (q - a) with ⟨ha, -⟩ | ⟨ha, -⟩ <;> linarith

/-- Above the middle of two numbers the greater one is nearer, and equally near in the middle
only. -/
theorem abs_sub_le_of_le_two_mul {a b q : ℚ} (hlt : a < b) (hle : a + b ≤ 2 * q) :
    |q - b| ≤ |q - a| ∧ (|q - b| = |q - a| → 2 * q = a + b) := by
  have ha : |q - a| = q - a := by
    rw [abs_of_nonneg]
    linarith
  rw [ha]
  constructor
  · rw [abs_le]
    constructor <;> linarith
  · intro heq
    rcases abs_cases (q - b) with ⟨hb, -⟩ | ⟨hb, -⟩ <;> linarith

/-- The nearer of two numbers tells on which side of their middle a number lies. -/
theorem two_mul_le_of_abs_sub_le {a b q : ℚ} (hlt : a < b) (hle : |q - a| ≤ |q - b|) :
    2 * q ≤ a + b := by
  by_contra hgt
  rw [not_le] at hgt
  have hother := abs_sub_le_of_le_two_mul hlt hgt.le
  have htie := hother.2 (le_antisymm hother.1 hle)
  linarith

/-- What is no farther from the greater of two numbers is not below their middle. -/
theorem le_two_mul_of_abs_sub_le {a b q : ℚ} (hlt : a < b) (hle : |q - b| ≤ |q - a|) :
    a + b ≤ 2 * q := by
  by_contra hgt
  rw [not_le] at hgt
  have hother := abs_sub_le_of_two_mul_le hlt hgt.le
  have htie := hother.2 (le_antisymm hother.1 hle)
  linarith

namespace Rounds

variable {negative : Bool} {q : ℚ}

/-- What rounds to the lesser of two ranks lies below their middle. -/
theorem two_mul_le {rank : Fin rankLimit} {other : Nat} (hother : other < rankLimit)
    (hlt : rank.val < other) (hrounds : Rounds negative q (.finite negative rank)) :
    2 * q ≤ exact rank + exact other := by
  cases hrounds with
  | finite hsmall hnearest heven =>
      exact two_mul_le_of_abs_sub_le (exact_strictMono hlt) (hnearest ⟨other, hother⟩)

/-- What rounds to the greater of two ranks lies above their middle. -/
theorem le_two_mul {rank : Fin rankLimit} {other : Nat} (hlt : other < rank.val)
    (hrounds : Rounds negative q (.finite negative rank)) :
    exact other + exact rank ≤ 2 * q := by
  cases hrounds with
  | finite hsmall hnearest heven =>
      exact le_two_mul_of_abs_sub_le (exact_strictMono hlt)
        (hnearest ⟨other, hlt.trans rank.isLt⟩)

/-- In the middle of two ranks a number rounds to an even one. -/
theorem even_of_tie {rank other : Fin rankLimit} (hne : other ≠ rank)
    (hrounds : Rounds negative q (.finite negative rank))
    (htie : 2 * q = exact rank + exact other) : rank.val % 2 = 0 := by
  cases hrounds with
  | finite hsmall hnearest heven =>
      have hdistance : q - exact rank = -(q - exact other) := by linarith
      exact heven other hne (by rw [hdistance, abs_neg])

/-- No greater rank is rounded to. -/
theorem le_of_rounds {rank rank' : Fin rankLimit}
    (hrounds : Rounds negative q (.finite negative rank))
    (hrounds' : Rounds negative q (.finite negative rank')) : rank' ≤ rank := by
  by_contra hlt
  rw [not_le] at hlt
  have htie : 2 * q = exact rank + exact rank' :=
    le_antisymm (two_mul_le rank'.isLt hlt hrounds) (le_two_mul hlt hrounds')
  have heven := even_of_tie (ne_of_gt hlt) hrounds htie
  have heven' := even_of_tie (ne_of_lt hlt) hrounds' (by rw [htie, add_comm])
  -- Both ranks are even, and the one between them is nearer than either.
  have hgap : rank.val + 1 < rank'.val := by
    have hval : rank.val < rank'.val := hlt
    omega
  have hbelow := two_mul_le (hgap.trans rank'.isLt) (Nat.lt_succ_self rank.val) hrounds
  have habove := exact_strictMono hgap
  linarith

/-- A rational number rounds to one number. -/
theorem unique {x y : Binary64} (hx : Rounds negative q x) (hy : Rounds negative q y) :
    x = y := by
  cases hx with
  | infinite hlarge =>
      cases hy with
      | infinite hlarge' => rfl
      | finite hsmall hnearest heven => exact absurd hlarge (not_le_of_gt hsmall)
  | finite hsmall hnearest heven =>
      cases hy with
      | infinite hlarge => exact absurd hlarge (not_le_of_gt hsmall)
      | finite hsmall' hnearest' heven' =>
          have hx : Rounds negative q _ := .finite hsmall hnearest heven
          have hy : Rounds negative q _ := .finite hsmall' hnearest' heven'
          rw [le_antisymm (le_of_rounds hy hx) (le_of_rounds hx hy)]

/-- What lies between two numbers that round to a third one rounds to it. -/
theorem between {a b : ℚ} {x : Binary64} (ha : Rounds negative a x) (hb : Rounds negative b x)
    (hle : a ≤ q) (hge : q ≤ b) : Rounds negative q x := by
  cases ha with
  | infinite hlarge => exact .infinite (hlarge.trans hle)
  | @finite rank hsmall hnearest heven =>
      have ha : Rounds negative a (.finite negative rank) := .finite hsmall hnearest heven
      have hside (other : Fin rankLimit) (hne : other ≠ rank) :
          |q - exact rank| ≤ |q - exact other| ∧
            (|q - exact rank| = |q - exact other| → rank.val % 2 = 0) := by
        rcases lt_or_gt_of_ne hne with hlt | hgt
        · have hlower := le_two_mul hlt ha
          have hmiddle := abs_sub_le_of_le_two_mul (exact_strictMono hlt)
            (by linarith : exact other + exact rank ≤ 2 * q)
          refine ⟨hmiddle.1, fun heq => even_of_tie hne ha ?_⟩
          have htie := hmiddle.2 heq
          linarith
        · have hupper := two_mul_le other.isLt hgt hb
          have hmiddle := abs_sub_le_of_two_mul_le (exact_strictMono hgt)
            (by linarith : 2 * q ≤ exact rank + exact other)
          refine ⟨hmiddle.1, fun heq => even_of_tie hne hb ?_⟩
          have htie := hmiddle.2 heq
          linarith
      have hbelow : q < overflow := by
        cases hb with
        | finite hsmall' => exact hge.trans_lt hsmall'
      refine .finite hbelow (fun other => ?_) fun other hne => (hside other hne).2
      by_cases hsame : other = rank
      · rw [hsame]
      · exact (hside other hsame).1

/-- Whether a magnitude rounds to a rank does not depend on the sign. -/
theorem of_finite {negative' : Bool} {rank : Fin rankLimit}
    (hrounds : Rounds negative q (.finite negative' rank)) (sign : Bool) :
    Rounds sign q (.finite sign rank) := by
  cases hrounds with
  | finite hsmall hnearest heven => exact .finite hsmall hnearest heven

/-- What is rounded is a number. -/
theorem ne_nan {x : Binary64} (hrounds : Rounds negative q x) : x ≠ .nan := by
  cases hrounds <;> exact nofun

/-! ## Limits -/

/-- The magnitudes that round to an infinity. -/
theorem eq_infinite_iff {x : Binary64} (hrounds : Rounds negative q x) :
    x = .infinite negative ↔ overflow ≤ q := by
  cases hrounds with
  | infinite hlarge => exact iff_of_true rfl hlarge
  | finite hsmall => exact iff_of_false nofun (not_le_of_gt hsmall)

/-- The magnitudes that round to zero. -/
theorem eq_zero_iff {x : Binary64} (hrounds : Rounds negative q x) (hq : 0 ≤ q) :
    x = zero negative ↔ q ≤ 1 / 2 ^ 1075 := by
  have hhalf : (1 : ℚ) / 2 ^ 1075 = exact 1 / 2 := by
    rw [exact_one, pow_succ 2 1074, div_div]
  have hlimit : exact 1 < overflow := by
    have hfirst := exact_strictMono (show 1 < rankLimit - 1 by decide)
    have hlast := exact_strictMono (show rankLimit - 1 < rankLimit by decide)
    linarith [exact_add_exact_eq_overflow]
  rw [hhalf]
  constructor
  · rintro rfl
    have hle := two_mul_le (show 1 < rankLimit by decide) Nat.zero_lt_one hrounds
    rw [exact_zero] at hle
    linarith
  · intro hle
    have hzero : Rounds negative q (zero negative) := by
      refine .finite (by linarith [exact_nonneg 1]) (fun other => ?_) fun _ _ _ => rfl
      by_cases hsame : other.val = 0
      · rw [hsame]
      · have hleast : exact 1 ≤ exact other := exact_strictMono.monotone (Nat.pos_of_ne_zero hsame)
        have hpositive : exact 0 < exact other := exact_strictMono (Nat.pos_of_ne_zero hsame)
        refine (abs_sub_le_of_two_mul_le hpositive ?_).1
        rw [exact_zero]
        linarith
    exact unique hrounds hzero

end Rounds

/-! ## Rounding follows the rule -/

section Quotients

variable {num den : Nat}

/-- Whether a quotient is at most the middle of two numbers is told in natural numbers. -/
theorem two_mul_quotient_le_iff (hden : 0 < den) (rank rank' : Nat) :
    2 * ((num : ℚ) / den / unitsPerOne) ≤ exact rank + exact rank' ↔
      2 * num ≤ (units rank + units rank') * den := by
  have hpos : (0 : ℚ) < den := by exact_mod_cast hden
  rw [exact, exact, ← add_div, ← mul_div_assoc, div_le_div_iff_of_pos_right unitsPerOne_pos,
    ← mul_div_assoc, div_le_iff₀ hpos]
  exact_mod_cast Iff.rfl

theorem le_two_mul_quotient_iff (hden : 0 < den) (rank rank' : Nat) :
    exact rank + exact rank' ≤ 2 * ((num : ℚ) / den / unitsPerOne) ↔
      (units rank + units rank') * den ≤ 2 * num := by
  have hpos : (0 : ℚ) < den := by exact_mod_cast hden
  rw [exact, exact, ← add_div, ← mul_div_assoc, div_le_div_iff_of_pos_right unitsPerOne_pos,
    ← mul_div_assoc, le_div_iff₀ hpos]
  exact_mod_cast Iff.rfl

/-- A quotient rounds to the rank that is nearest to it. -/
theorem Nearest.rounds {rank : Fin rankLimit} (hnear : Nearest rank num den) (hden : 0 < den)
    (negative : Bool) : Rounds negative (num / den / unitsPerOne) (.finite negative rank) := by
  have habove := (two_mul_quotient_le_iff hden rank (rank + 1)).2 hnear.above
  have hbelow (lower : Nat) (hlower : rank.val = lower + 1) :=
    (le_two_mul_quotient_iff hden lower rank).2 (hnear.below lower hlower)
  have htop (htie : 2 * ((num : ℚ) / den / unitsPerOne) = exact rank + exact (rank + 1)) :
      rank.val % 2 = 0 :=
    hnear.even_of_above (le_antisymm hnear.above
      ((le_two_mul_quotient_iff hden rank (rank + 1)).1 htie.ge))
  have hbottom (lower : Nat) (hlower : rank.val = lower + 1)
      (htie : 2 * ((num : ℚ) / den / unitsPerOne) = exact lower + exact rank) :
      rank.val % 2 = 0 :=
    hnear.even_of_below lower hlower (le_antisymm (hnear.below lower hlower)
      ((two_mul_quotient_le_iff hden lower rank).1 htie.le))
  generalize (num : ℚ) / den / unitsPerOne = q at *
  have hside (other : Fin rankLimit) (hne : other ≠ rank) :
      |q - exact rank| ≤ |q - exact other| ∧
        (|q - exact rank| = |q - exact other| → rank.val % 2 = 0) := by
    rcases lt_or_gt_of_ne hne with hlt | hgt
    · obtain ⟨lower, hlower⟩ := Nat.exists_eq_succ_of_ne_zero (Nat.ne_zero_of_lt hlt)
      have hrank := hbelow lower hlower
      have hmono : exact other ≤ exact lower :=
        exact_strictMono.monotone (Nat.le_of_lt_succ (hlower ▸ hlt))
      have hmiddle := abs_sub_le_of_le_two_mul (exact_strictMono hlt)
        (by linarith : exact other + exact rank ≤ 2 * q)
      refine ⟨hmiddle.1, fun heq => hbottom lower hlower ?_⟩
      linarith [hmiddle.2 heq]
    · have hmono : exact (rank + 1) ≤ exact other := exact_strictMono.monotone hgt
      have hmiddle := abs_sub_le_of_two_mul_le (exact_strictMono hgt)
        (by linarith : 2 * q ≤ exact rank + exact other)
      refine ⟨hmiddle.1, fun heq => htop ?_⟩
      linarith [hmiddle.2 heq]
  have hsmall : q < overflow := by
    have hlimit := exact_add_exact_eq_overflow
    by_cases hlast : rank.val = rankLimit - 1
    · -- The last rank is odd, so that not even the middle rounds to it.
      have hodd : rank.val % 2 = 1 := by
        rw [hlast]
        decide
      have hne : 2 * q ≠ exact rank + exact (rank + 1) := fun htie => by
        rw [htop htie] at hodd
        cases hodd
      rw [hlast] at habove hne
      have hlt := lt_of_le_of_ne habove hne
      change 2 * q < exact (rankLimit - 1) + exact rankLimit at hlt
      linarith
    · have hrank := rank.isLt
      have hlt : exact rank < exact (rankLimit - 1) := exact_strictMono (by omega)
      have hle : exact (rank + 1) ≤ exact rankLimit := exact_strictMono.monotone hrank
      linarith
  refine .finite hsmall (fun other => ?_) fun other hne => (hside other hne).2
  by_cases hsame : other = rank
  · rw [hsame]
  · exact (hside other hsame).1

/-- A quotient of units is rounded correctly. -/
theorem rounds_ofRatio (negative : Bool) (num : Nat) {den : Nat} (hden : 0 < den) :
    Rounds negative (num / den / unitsPerOne) (ofRatio negative num den) := by
  have hnear := nearest_nearestRank num hden
  unfold ofRatio
  dsimp only
  generalize nearestRank num den = rank at hnear
  split
  · rename_i hlt
    exact @Nearest.rounds num den ⟨rank, hlt⟩ hnear hden negative
  · rename_i hge
    rw [Nat.not_lt] at hge
    obtain ⟨lower, hlower⟩ : ∃ lower, rank = lower + 1 :=
      Nat.exists_eq_succ_of_ne_zero (Nat.ne_of_gt (Nat.lt_of_lt_of_le (by decide) hge))
    have hbelow := (le_two_mul_quotient_iff hden lower rank).2 (hnear.below lower hlower)
    have hlast : exact (rankLimit - 1) ≤ exact lower := exact_strictMono.monotone (by omega)
    have hlimit : exact rankLimit ≤ exact rank := exact_strictMono.monotone hge
    refine .infinite ?_
    linarith [exact_add_exact_eq_overflow]

end Quotients

/-- A decimal is rounded correctly. -/
theorem rounds_ofDecimal (negative : Bool) (significand : Nat) (exponent : Int) :
    Rounds negative (significand * 10 ^ exponent) (ofDecimal negative significand exponent) := by
  have hden : 0 < Nat.pow 10 (-exponent).toNat := Nat.pow_pos (by decide)
  have hrounds := rounds_ofRatio negative
    (significand * Nat.pow 10 exponent.toNat * unitsPerOne) hden
  have hpower : (10 : ℚ) ^ exponent = 10 ^ exponent.toNat / 10 ^ (-exponent).toNat := by
    rw [← zpow_natCast, ← zpow_natCast, ← zpow_sub₀ (by norm_num)]
    congr 1
    omega
  have hvalue : (significand : ℚ) * 10 ^ exponent =
      ((significand * Nat.pow 10 exponent.toNat * unitsPerOne : ℕ) : ℚ) /
        ((Nat.pow 10 (-exponent).toNat : ℕ) : ℚ) / unitsPerOne := by
    have hone := unitsPerOne_pos.ne'
    rw [hpower, Nat.pow_eq, Nat.pow_eq]
    push_cast
    field_simp
  rw [hvalue]
  exact hrounds

end Binary64
end Lox
