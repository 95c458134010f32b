import Lox.Proofs.Binary64.Comparison
import Lox.Proofs.Decimal.NumberText
import Lox.Proofs.Expr.Rules

/-!
# Equality of values

Equal values are the same value, with two exceptions that come from the numbers: not-a-number is
not equal to itself, and the two zeros are equal.  So equality is symmetric and transitive, and
never holds between values of different sorts.  Within a sort a value is known by its text, so that
text and equality disagree over the same two exceptions.

Main results:

- Theorem {lit}`equal_iff_eq`: which values are equal.
- Theorem {lit}`equal_eq_looselyEqual`: an equality that does not tell a boolean from a number is
  mended by a look at the sorts.
- Theorem {lit}`text_inj_of_tag`: a value is known by its sort and its text.
- Theorems {lit}`same_text_unequal_iff`, {lit}`equal_other_text_iff`: where text and equality
  disagree.
-/

namespace Lox
namespace Value

/-! ## Which values are equal -/

/-- The value is one of the two zeros. -/
def isZero : Value → Bool
  | .number x => x.isZero
  | _ => false

/-- The values that are zero are the two zeros. -/
theorem exists_zero_of_isZero {v : Value} (hzero : v.isZero = true) :
    ∃ negative, v = .number (.zero negative) := by
  cases v with
  | number x => exact ⟨x.isNegative, congrArg number (Binary64.eq_zero_of_isZero hzero)⟩
  | _ => cases hzero

/-- Equal values are the same value, or both are zeros. -/
theorem equal_iff_eq (v w : Value) :
    v.equal w = true ↔ (v = w ∧ v ≠ .number .nan) ∨ (v.isZero = true ∧ w.isZero = true) := by
  cases v with
  | number x => cases w <;> simp [equal, isZero, Binary64.equal_iff_eq]
  | _ => cases w <;> simp [equal, isZero]

/-- Equality is transitive. -/
theorem equal_trans {u v w : Value} (huv : u.equal v = true) (hvw : v.equal w = true) :
    u.equal w = true := by
  rw [equal_iff_eq] at huv
  rcases huv with ⟨rfl, -⟩ | ⟨hu, hv⟩
  · exact hvw
  · rw [equal_iff_eq] at hvw ⊢
    rcases hvw with ⟨rfl, -⟩ | ⟨-, hw⟩
    · exact .inr ⟨hu, hv⟩
    · exact .inr ⟨hu, hw⟩

/-- Not-a-number alone is not equal to itself. -/
theorem equal_self_eq_false_iff (v : Value) : v.equal v = false ↔ v = .number .nan := by
  rw [← Bool.not_eq_true, equal_iff_eq]
  constructor
  · intro hunequal
    by_contra hnumber
    exact hunequal (.inl ⟨rfl, hnumber⟩)
  · rintro rfl
    simp [isZero, Binary64.isZero]

/-- Equal values have one sort. -/
theorem tag_eq_of_equal {v w : Value} (hequal : v.equal w = true) : v.tag = w.tag := by
  rw [equal_iff_eq] at hequal
  rcases hequal with ⟨rfl, -⟩ | ⟨hv, hw⟩
  · rfl
  · rcases exists_zero_of_isZero hv with ⟨negative, rfl⟩
    rcases exists_zero_of_isZero hw with ⟨negative', rfl⟩
    rfl

/-- Only nil equals nil. -/
theorem equal_nil_iff (v : Value) : v.equal .nil = true ↔ v = .nil := by
  cases v <;> simp [equal]

/-- Equality is loose equality within a sort. -/
theorem equal_eq_looselyEqual (v w : Value) :
    v.equal w = (decide (v.tag = w.tag) && v.looselyEqual w) := by
  cases v with
  | boolean a =>
      cases w with
      | boolean b => cases a <;> cases b <;> decide
      | _ => simp [equal, tag]
  | _ => cases w <;> simp [equal, tag, looselyEqual, asNumber?]

/-- A boolean and a number are loosely equal, and not equal. -/
example : (boolean true).looselyEqual (.number .one) = true ∧
    (boolean true).equal (.number .one) = false := by
  decide

/-! ## Text and equality -/

/-- A value is known by its sort and its text. -/
theorem text_inj_of_tag {v w : Value} (htag : v.tag = w.tag) : v.text = w.text ↔ v = w := by
  cases v with
  | nil => cases w <;> simp_all [tag]
  | boolean a =>
      cases w with
      | boolean b => cases a <;> cases b <;> decide
      | _ => cases htag
  | number x =>
      cases w with
      | number y =>
          rw [text_number, text_number, Binary64.text, Binary64.text, String.ofList_inj,
            Binary64.chars_injective.eq_iff, number.injEq]
      | _ => cases htag
  | string s => cases w <;> simp_all [tag]

/-- Of the values with one text, not-a-number alone is unequal. -/
theorem same_text_unequal_iff {v w : Value} (htag : v.tag = w.tag) :
    v.text = w.text ∧ v.equal w = false ↔ v = .number .nan ∧ w = .number .nan := by
  rw [text_inj_of_tag htag]
  constructor
  · rintro ⟨rfl, hunequal⟩
    rw [equal_self_eq_false_iff] at hunequal
    exact ⟨hunequal, hunequal⟩
  · rintro ⟨rfl, rfl⟩
    exact ⟨rfl, rfl⟩

/-- The texts of the zeros. -/
theorem text_zero (negative : Bool) :
    (number (.zero negative)).text = if negative then "-0" else "0" := by
  cases negative <;> rfl

/-- Of the values with different texts, the two zeros alone are equal. -/
theorem equal_other_text_iff (v w : Value) :
    v.equal w = true ∧ v.text ≠ w.text ↔
      ∃ negative, v = .number (.zero negative) ∧ w = .number (.zero !negative) := by
  constructor
  · rintro ⟨hequal, htext⟩
    rw [ne_eq, text_inj_of_tag (tag_eq_of_equal hequal)] at htext
    rw [equal_iff_eq] at hequal
    rcases hequal with ⟨heq, -⟩ | ⟨hv, hw⟩
    · exact absurd heq htext
    · rcases exists_zero_of_isZero hv with ⟨negative, rfl⟩
      rcases exists_zero_of_isZero hw with ⟨negative', rfl⟩
      have hsign : negative' ≠ negative := fun heq => htext (by rw [heq])
      exact ⟨negative, rfl, by rw [Bool.eq_not_of_ne hsign]⟩
  · rintro ⟨negative, rfl, rfl⟩
    refine ⟨(equal_iff_eq _ _).2 (.inr ⟨rfl, rfl⟩), ?_⟩
    rw [text_zero, text_zero]
    cases negative <;> decide

end Value
end Lox
