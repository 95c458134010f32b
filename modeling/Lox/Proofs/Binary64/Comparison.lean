import Lox.Binary64.Order
import Lox.Proofs.Binary64.Sign
import Mathlib.Data.EReal.Basic

/-!
# Numbers in the order of their exact values

Every number but not-a-number is an extended real number: both zeros are zero, and the infinities
are the two ends.  Comparison in units follows the order of these values, and is false wherever
not-a-number takes part.  Numbers of one value are the same number, or both are zeros.

Main results:

- Theorem {lit}`exists_toEReal?_eq_iff`: not-a-number alone has no value.
- Theorem {lit}`less_iff`, {lit}`lessEqual_iff`, {lit}`equal_iff`: comparison follows the order of
  the values.
- Theorem {lit}`equal_iff_eq`: which numbers are equal.
-/

namespace Lox
namespace Binary64

/-! ## Exact values -/

/-- The extended real number that a number is. -/
noncomputable def toEReal? : Binary64 → Option EReal
  | .nan => none
  | .infinite true => some ⊥
  | .infinite false => some ⊤
  | .finite negative rank => some ((withSign negative (exact rank) : ℚ) : ℝ)

/-- A value in units, and the extended real number that it stands for. -/
inductive Stands : Int → EReal → Prop where
  | bottom : Stands (-units rankLimit) ⊥
  | top : Stands (units rankLimit) ⊤
  | finite {a : Int} (hlower : -(units rankLimit : Int) < a) (hupper : a < units rankLimit) :
      Stands a ((a / unitsPerOne : ℚ) : ℝ)

theorem units_rankLimit_pos : (0 : Int) < units rankLimit := by
  have hunits : 0 < units rankLimit := units_pos (by decide)
  exact_mod_cast hunits

/-- The order of values in units is the order of what they stand for. -/
theorem Stands.lt_iff {a b : Int} {r s : EReal} (ha : Stands a r) (hb : Stands b s) :
    a < b ↔ r < s := by
  have hlimit := units_rankLimit_pos
  cases ha with
  | bottom =>
      cases hb with
      | bottom => simp
      | top => simpa using hlimit
      | finite hlower hupper => simpa using hlower
  | top =>
      cases hb with
      | bottom => simp
      | top => simp
      | finite hlower hupper => simpa using hupper.le
  | finite hlower hupper =>
      cases hb with
      | bottom => simpa using hlower.le
      | top => simpa using hupper
      | finite hlower' hupper' =>
          rw [EReal.coe_lt_coe_iff, Rat.cast_lt, div_lt_div_iff_of_pos_right unitsPerOne_pos,
            Int.cast_lt]

/-- One value in units is at most another exactly if what it stands for is. -/
theorem Stands.le_iff {a b : Int} {r s : EReal} (ha : Stands a r) (hb : Stands b s) :
    a ≤ b ↔ r ≤ s := by
  rw [← not_lt, ← not_lt, hb.lt_iff ha]

/-- Values in units are equal exactly if they stand for the same. -/
theorem Stands.eq_iff {a b : Int} {r s : EReal} (ha : Stands a r) (hb : Stands b s) :
    a = b ↔ r = s := by
  rw [le_antisymm_iff, le_antisymm_iff, ha.le_iff hb, hb.le_iff ha]

/-- The value of a finite number in units stands for the number. -/
theorem stands_finite (negative : Bool) (rank : Fin rankLimit) :
    Stands (signed negative (units rank)) ((withSign negative (exact rank) : ℚ) : ℝ) := by
  have hunits : units rank < units rankLimit := units_strictMono rank.isLt
  have hvalue : withSign negative (exact rank) =
      (signed negative (units rank) : ℚ) / unitsPerOne := by
    cases negative with
    | false => simp [withSign, signed, exact]
    | true => simp [withSign, signed, exact, neg_div]
  rw [hvalue]
  apply Stands.finite
  · cases negative <;> simp only [signed] <;> omega
  · cases negative <;> simp only [signed] <;> omega

/-- The value of a number in units stands for the extended real number that the number is. -/
theorem exists_stands {x : Binary64} (hx : x ≠ .nan) :
    ∃ a r, x.value? = some a ∧ x.toEReal? = some r ∧ Stands a r := by
  cases x with
  | nan => exact absurd rfl hx
  | infinite negative =>
      cases negative with
      | true => exact ⟨_, _, rfl, rfl, .bottom⟩
      | false => exact ⟨_, _, rfl, rfl, .top⟩
  | finite negative rank => exact ⟨_, _, rfl, rfl, stands_finite negative rank⟩

/-- Not-a-number alone has no value. -/
theorem exists_toEReal?_eq_iff (x : Binary64) : (∃ r, x.toEReal? = some r) ↔ x ≠ .nan := by
  constructor
  · rintro ⟨r, hr⟩ rfl
    cases hr
  · intro hx
    rcases exists_stands hx with ⟨a, r, -, hr, -⟩
    exact ⟨r, hr⟩

/-! ## Comparison follows the order of the values -/

/-- No comparison with not-a-number holds. -/
theorem compareValues_of_nan (holds : Int → Int → Bool) {x y : Binary64}
    (hnan : x = .nan ∨ y = .nan) : compareValues holds x y = false := by
  rcases hnan with rfl | rfl
  · rfl
  · cases x <;> rfl

section Compare

variable {x y : Binary64} {r s : EReal}

/-- Two numbers with values are compared in units that stand for these values. -/
theorem exists_compareValues_eq (hr : x.toEReal? = some r) (hs : y.toEReal? = some s) :
    ∃ a b, Stands a r ∧ Stands b s ∧ ∀ holds, compareValues holds x y = holds a b := by
  rcases exists_stands ((exists_toEReal?_eq_iff x).1 ⟨r, hr⟩) with ⟨a, r', ha, hr', hx⟩
  rcases exists_stands ((exists_toEReal?_eq_iff y).1 ⟨s, hs⟩) with ⟨b, s', hb, hs', hy⟩
  rw [hr, Option.some_inj] at hr'
  rw [hs, Option.some_inj] at hs'
  refine ⟨a, b, hr' ▸ hx, hs' ▸ hy, fun holds => ?_⟩
  rw [compareValues, ha, hb]

/-- A number is less than another exactly if its value is. -/
theorem less_iff (hr : x.toEReal? = some r) (hs : y.toEReal? = some s) :
    x.less y = true ↔ r < s := by
  rcases exists_compareValues_eq hr hs with ⟨a, b, hx, hy, hcompare⟩
  rw [less, hcompare, decide_eq_true_iff, hx.lt_iff hy]

/-- A number is at most another exactly if its value is. -/
theorem lessEqual_iff (hr : x.toEReal? = some r) (hs : y.toEReal? = some s) :
    x.lessEqual y = true ↔ r ≤ s := by
  rcases exists_compareValues_eq hr hs with ⟨a, b, hx, hy, hcompare⟩
  rw [lessEqual, hcompare, decide_eq_true_iff, hx.le_iff hy]

/-- Numbers are equal exactly if their values are. -/
theorem equal_iff (hr : x.toEReal? = some r) (hs : y.toEReal? = some s) :
    x.equal y = true ↔ r = s := by
  rcases exists_compareValues_eq hr hs with ⟨a, b, hx, hy, hcompare⟩
  rw [equal, hcompare, decide_eq_true_iff, hx.eq_iff hy]

end Compare

/-- At most is less or equal, also with not-a-number. -/
theorem lessEqual_eq (x y : Binary64) : x.lessEqual y = (x.less y || x.equal y) := by
  unfold lessEqual less equal compareValues
  cases x.value? <;> cases y.value? <;> simp [Int.le_iff_lt_or_eq]

/-- One of less, equal and greater holds. -/
theorem count_less_equal_less {x y : Binary64} (hx : x ≠ .nan) (hy : y ≠ .nan) :
    [x.less y, x.equal y, y.less x].count true = 1 := by
  rcases (exists_toEReal?_eq_iff x).2 hx with ⟨r, hr⟩
  rcases (exists_toEReal?_eq_iff y).2 hy with ⟨s, hs⟩
  have hxy := less_iff hr hs
  have hequal := equal_iff hr hs
  have hyx := less_iff hs hr
  rcases lt_trichotomy r s with hlt | heq | hgt
  · simp [hxy.2 hlt, mt hequal.1 hlt.ne, mt hyx.1 hlt.asymm]
  · simp [mt hxy.1 heq.not_lt, hequal.2 heq, mt hyx.1 heq.not_gt]
  · simp [mt hxy.1 hgt.asymm, mt hequal.1 hgt.ne', hyx.2 hgt]

/-- What is compared as true has values. -/
theorem exists_toEReal?_of_compareValues {holds : Int → Int → Bool} {x y : Binary64}
    (hcompare : compareValues holds x y = true) :
    ∃ r s, x.toEReal? = some r ∧ y.toEReal? = some s := by
  have hx : x ≠ .nan := fun hnan => by
    rw [compareValues_of_nan holds (.inl hnan)] at hcompare
    cases hcompare
  have hy : y ≠ .nan := fun hnan => by
    rw [compareValues_of_nan holds (.inr hnan)] at hcompare
    cases hcompare
  rcases (exists_toEReal?_eq_iff x).2 hx with ⟨r, hr⟩
  rcases (exists_toEReal?_eq_iff y).2 hy with ⟨s, hs⟩
  exact ⟨r, s, hr, hs⟩

/-- The order is transitive. -/
theorem less_trans {x y z : Binary64} (hxy : x.less y = true) (hyz : y.less z = true) :
    x.less z = true := by
  rcases exists_toEReal?_of_compareValues hxy with ⟨r, s, hr, hs⟩
  rcases exists_toEReal?_of_compareValues hyz with ⟨-, t, -, ht⟩
  rw [less_iff hr hs] at hxy
  rw [less_iff hs ht] at hyz
  rw [less_iff hr ht]
  exact hxy.trans hyz

/-! ## Which numbers are equal -/

/-- Magnitudes with signs are equal only if both are equal, or the magnitudes are zero. -/
theorem withSign_exact_inj {negative negative' : Bool} {rank rank' : Nat}
    (heq : withSign negative (exact rank) = withSign negative' (exact rank')) :
    rank = rank' ∧ (negative = negative' ∨ rank = 0) := by
  have hmagnitude := congrArg abs heq
  rw [abs_withSign, abs_withSign, abs_of_nonneg (exact_nonneg rank),
    abs_of_nonneg (exact_nonneg rank')] at hmagnitude
  have hrank := exact_strictMono.injective hmagnitude
  refine ⟨hrank, ?_⟩
  rw [hrank] at heq ⊢
  rw [← exact_eq_zero_iff]
  cases negative <;> cases negative' <;> simp only [withSign] at heq
  · exact .inl rfl
  · exact .inr (self_eq_neg.1 heq)
  · exact .inr (neg_eq_self.1 heq)
  · exact .inl rfl

/-- Numbers of one value are the same number, or both are zeros. -/
theorem eq_of_toEReal?_eq {x y : Binary64} (hsame : x.toEReal? = y.toEReal?) :
    x = y ∨ (x.isZero = true ∧ y.isZero = true) := by
  cases x with
  | nan =>
      cases y with
      | nan => exact .inl rfl
      | infinite negative => cases negative <;> cases hsame
      | finite negative rank => cases hsame
  | infinite negative =>
      left
      cases y with
      | nan => cases negative <;> cases hsame
      | infinite negative' => cases negative <;> cases negative' <;> simp [toEReal?] at hsame ⊢
      | finite negative' rank' => cases negative <;> simp [toEReal?] at hsame
  | finite negative rank =>
      cases y with
      | nan => cases hsame
      | infinite negative' => cases negative' <;> simp [toEReal?] at hsame
      | finite negative' rank' =>
          rw [toEReal?, toEReal?, Option.some_inj, EReal.coe_eq_coe_iff, Rat.cast_inj] at hsame
          rcases withSign_exact_inj hsame with ⟨hrank, rfl | hzero⟩
          · exact .inl (by rw [Fin.ext hrank])
          · right
            rw [isZero, isZero, ← hrank, hzero]
            exact ⟨rfl, rfl⟩

/-- Both zeros have the value zero. -/
theorem toEReal?_of_isZero {x : Binary64} (hzero : x.isZero = true) : x.toEReal? = some 0 := by
  cases x with
  | finite negative rank =>
      rw [isZero, decide_eq_true_iff] at hzero
      rw [toEReal?, hzero, exact_zero, (withSign_eq_zero_iff negative 0).2 rfl, Rat.cast_zero,
        EReal.coe_zero]
  | _ => cases hzero

/-- Equal numbers are the same number, or both are zeros. -/
theorem equal_iff_eq (x y : Binary64) :
    x.equal y = true ↔ (x = y ∧ x ≠ .nan) ∨ (x.isZero = true ∧ y.isZero = true) := by
  constructor
  · intro hequal
    rcases exists_toEReal?_of_compareValues hequal with ⟨r, s, hr, hs⟩
    rw [equal_iff hr hs] at hequal
    rw [hequal] at hr
    exact (eq_of_toEReal?_eq (hr.trans hs.symm)).imp_left fun hsame =>
      ⟨hsame, (exists_toEReal?_eq_iff x).1 ⟨s, hr⟩⟩
  · rintro (⟨rfl, hx⟩ | ⟨hx, hy⟩)
    · rw [equal_self, decide_eq_true_iff]
      exact hx
    · rw [equal_iff (toEReal?_of_isZero hx) (toEReal?_of_isZero hy)]

/-- A number equals a zero exactly if it is one of the two. -/
theorem equal_zero (x : Binary64) (negative : Bool) : x.equal (.zero negative) = x.isZero := by
  rw [Bool.eq_iff_iff, equal_iff_eq]
  constructor
  · rintro (⟨rfl, -⟩ | ⟨hx, -⟩)
    · rfl
    · exact hx
  · intro hx
    exact .inr ⟨hx, rfl⟩

end Binary64
end Lox
