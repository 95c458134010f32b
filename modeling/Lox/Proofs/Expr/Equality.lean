import Lox.Proofs.Expr.FirstFailure
import Lox.Proofs.Value.Equality

/-!
# Equality of trees

An operator of equality takes any two values, so that only its operands can fail.  With values for
both operands it answers whether they are equal, or whether they are not.

Main results:

- Theorem {lit}`evaluate_eq_error_iff`: an operator that takes all values fails exactly as its
  operands do.
- Theorem {lit}`answersEquality`: what the two operators of equality answer.
- Theorem {lit}`equality_laws`: equality of values and of trees.
-/

namespace Lox
namespace Expr

/-! ## Failures -/

/-- An operator takes all values. -/
def TakesAll (operator : Token) : Prop :=
  ∀ v w, ∃ value, operator.kind.applyBinary v w = .ok value

/-- Equality rejects no values. -/
theorem takesAll_same {operator : Token} (hkind : operator.kind = .equalEqual) :
    TakesAll operator := by
  intro v w
  rw [hkind]
  exact ⟨_, Token.Kind.applyBinary_equalEqual v w⟩

theorem takesAll_different {operator : Token} (hkind : operator.kind = .bangEqual) :
    TakesAll operator := by
  intro v w
  rw [hkind]
  exact ⟨_, Token.Kind.applyBinary_bangEqual v w⟩

section Failures

variable {p q : Expr} {operator : Token}

/-- An operator that takes all values fails over the left operand, or over the right one once the
left one has a value. -/
theorem evaluate_eq_error_iff (htakes : TakesAll operator) (error : EvalError) :
    (binary p operator q).evaluate = .error error ↔
      p.evaluate = .error error ∨
        (∃ value, p.evaluate = .ok value) ∧ q.evaluate = .error error := by
  cases hp : p.evaluate with
  | error other => simp [evaluate_binary_of_left_error hp]
  | ok v =>
      cases hq : q.evaluate with
      | error other => simp [evaluate_binary_of_right_error hp hq]
      | ok w =>
          rcases htakes v w with ⟨value, hvalue⟩
          simp [evaluate_binary_of_applyBinary hp hq hvalue]

/-- An operator that takes all values fails if one of its operands does. -/
theorem exists_evaluate_eq_error_iff (htakes : TakesAll operator) :
    (∃ error, (binary p operator q).evaluate = .error error) ↔
      (∃ error, p.evaluate = .error error) ∨ ∃ error, q.evaluate = .error error := by
  simp only [evaluate_eq_error_iff htakes, exists_or, exists_and_left]
  cases p.evaluate <;> simp

end Failures

/-! ## Answers -/

section Answers

variable {p q : Expr} {operator : Token} {v w : Value}

/-- The equality of two values is evaluated to whether they are equal. -/
theorem evaluate_same (hkind : operator.kind = .equalEqual) (hp : p.evaluate = .ok v)
    (hq : q.evaluate = .ok w) :
    (binary p operator q).evaluate = .ok (.boolean (v.equal w)) := by
  apply evaluate_binary_of_applyBinary hp hq
  rw [hkind, Token.Kind.applyBinary_equalEqual]

theorem evaluate_different (hkind : operator.kind = .bangEqual) (hp : p.evaluate = .ok v)
    (hq : q.evaluate = .ok w) :
    (binary p operator q).evaluate = .ok (.boolean !v.equal w) := by
  apply evaluate_binary_of_applyBinary hp hq
  rw [hkind, Token.Kind.applyBinary_bangEqual]

end Answers

/-- The two operators of equality between two trees. -/
structure AnswersEquality (same different : Token) (p q : Expr) : Prop where
  /-- Equality fails exactly if one of its operands does. -/
  fails_iff : (∃ error, (binary p same q).evaluate = .error error) ↔
    (∃ error, p.evaluate = .error error) ∨ ∃ error, q.evaluate = .error error
  /-- The failure is that of the left operand, or of the right one if the left one has a value. -/
  error_iff : ∀ error, (binary p same q).evaluate = .error error ↔
    p.evaluate = .error error ∨ (∃ value, p.evaluate = .ok value) ∧ q.evaluate = .error error
  /-- The other operator has the same failures. -/
  different_error_iff : ∀ error,
    (binary p different q).evaluate = .error error ↔ (binary p same q).evaluate = .error error
  /-- Otherwise it has the other answer. -/
  different_of_same : ∀ value, (binary p same q).evaluate = .ok value →
    ∃ answer, value = .boolean answer ∧ (binary p different q).evaluate = .ok (.boolean !answer)
  /-- With values for its operands, equality answers whether these are equal, in either order. -/
  symmetric : ∀ v w, p.evaluate = .ok v → q.evaluate = .ok w →
    (binary p same q).evaluate = .ok (.boolean (v.equal w)) ∧
      (binary q same p).evaluate = .ok (.boolean (v.equal w))

/-- What the two operators of equality answer. -/
theorem answersEquality {same different : Token} (hsame : same.kind = .equalEqual)
    (hdifferent : different.kind = .bangEqual) (p q : Expr) :
    AnswersEquality same different p q where
  fails_iff := exists_evaluate_eq_error_iff (takesAll_same hsame)
  error_iff := evaluate_eq_error_iff (takesAll_same hsame)
  different_error_iff error := by
    rw [evaluate_eq_error_iff (takesAll_same hsame),
      evaluate_eq_error_iff (takesAll_different hdifferent)]
  different_of_same value hvalue := by
    rcases operands_of_evaluate_binary hvalue with ⟨v, w, hp, hq, -⟩
    rw [evaluate_same hsame hp hq, Except.ok.injEq] at hvalue
    exact ⟨v.equal w, hvalue.symm, evaluate_different hdifferent hp hq⟩
  symmetric v w hp hq := by
    refine ⟨evaluate_same hsame hp hq, ?_⟩
    rw [v.equal_comm]
    exact evaluate_same hsame hq hp

/-! ## Values and trees -/

/-- Equality is symmetric and transitive, and holds between every value and itself but for
not-a-number.  It never holds between values of different sorts, and between values of one sort it
holds exactly if they have the same text, but for not-a-number and for the two zeros.  Trees are
compared by their values, and whatever these are, only an operand can fail. -/
theorem equality_laws :
    (∀ v w : Value, v.equal w = w.equal v) ∧
      (∀ u v w : Value, u.equal v = true → v.equal w = true → u.equal w = true) ∧
      (∀ v : Value, v.equal v = false ↔ v = .number .nan) ∧
      (∀ v w : Value, v.tag ≠ w.tag → v.equal w = false) ∧
      (∀ v : Value, v.equal .nil = true ↔ v = .nil) ∧
      (∀ v w : Value, v.tag = w.tag →
        (v.text = w.text ∧ v.equal w = false ↔ v = .number .nan ∧ w = .number .nan) ∧
          (v.equal w = true ∧ v.text ≠ w.text ↔
            ∃ negative, v = .number (.zero negative) ∧ w = .number (.zero !negative))) ∧
      (∀ negative, (Value.number (.zero negative)).text = if negative then "-0" else "0") ∧
      ∀ same different : Token, same.kind = .equalEqual → different.kind = .bangEqual →
        ∀ p q, AnswersEquality same different p q := by
  refine ⟨Value.equal_comm, fun _ _ _ => Value.equal_trans, Value.equal_self_eq_false_iff, ?_,
    Value.equal_nil_iff, ?_, Value.text_zero, fun _ _ => answersEquality⟩
  · intro v w htag
    rw [← Bool.not_eq_true]
    exact mt Value.tag_eq_of_equal htag
  · intro v w htag
    exact ⟨Value.same_text_unequal_iff htag, Value.equal_other_text_iff v w⟩

end Expr
end Lox
