import Lox.Proofs.Expr.FirstFailure

/-!
# Static typing

Two trees are alike if they differ in nothing but the values of their literals, and
these have the same sorts.  Alike trees have the same outcome: values of one sort, or
failures for one reason at one place.  The sort of a tree follows from rules that do
not look at values, and a tree without a sort fails.

Main results:

- Theorem {lit}`hasTag_iff_evaluate`: the rules give a tree the sort of its value.
- Theorem {lit}`evaluate_alike`: alike trees have values of the same sort, or fail at
  the same place for the same reason.
-/

namespace Lox
namespace Expr

open Token.Kind (UnaryRule BinaryRule RejectsUnary RejectsBinary)
open Value (Tag)

/-! ## The sort of a tree -/

/-- A tree has a sort by the rules. -/
inductive HasTag : Expr → Tag → Prop where
  | literal {value : Value} : HasTag (.literal value) value.tag
  | grouping {inner : Expr} {tag : Tag} (hinner : HasTag inner tag) :
      HasTag (.grouping inner) tag
  | unary {operator : Token} {operand : Expr} {tag result : Tag}
      (hoperand : HasTag operand tag) (hrule : UnaryRule operator.kind tag result) :
      HasTag (.unary operator operand) result
  | binary {left right : Expr} {operator : Token} {leftTag rightTag result : Tag}
      (hleft : HasTag left leftTag) (hright : HasTag right rightTag)
      (hrule : BinaryRule operator.kind leftTag rightTag result) :
      HasTag (.binary left operator right) result

/-- A tree with a value has its sort. -/
theorem hasTag_of_evaluate {e : Expr} {value : Value} (hvalue : e.evaluate = .ok value) :
    HasTag e value.tag := by
  induction e generalizing value with
  | literal other =>
      cases hvalue
      exact .literal
  | grouping inner ih => exact .grouping (ih hvalue)
  | unary operator operand ih =>
      rcases operand_of_evaluate_unary hvalue with ⟨operandValue, hoperand, hrule⟩
      exact .unary (ih hoperand) hrule
  | binary left operator right ihleft ihright =>
      rcases operands_of_evaluate_binary hvalue with
        ⟨leftValue, rightValue, hleft, hright, hrule⟩
      exact .binary (ihleft hleft) (ihright hright) hrule
  | bare other => cases hvalue

/-- A tree with a sort has a value of it. -/
theorem HasTag.evaluate {e : Expr} {tag : Tag} (htag : HasTag e tag) :
    ∃ value, e.evaluate = .ok value ∧ value.tag = tag := by
  induction htag with
  | literal => exact ⟨_, rfl, rfl⟩
  | grouping hinner ih => exact ih
  | @unary operator operand tag result hoperand hrule ih =>
      rcases ih with ⟨value, hvalue, rfl⟩
      rcases evaluate_unary_by_rule operator hvalue with
        ⟨other, hresult, hother⟩ | ⟨mismatch, -, hrejects⟩
      · exact ⟨other, hresult, hother.unique hrule⟩
      · exact absurd hrejects hrule.not_rejects
  | @binary left right operator leftTag rightTag result hleft hright hrule ihleft ihright =>
      rcases ihleft with ⟨leftValue, hleftValue, rfl⟩
      rcases ihright with ⟨rightValue, hrightValue, rfl⟩
      rcases evaluate_binary_by_rule operator hleftValue hrightValue with
        ⟨other, hresult, hother⟩ | ⟨mismatch, -, hrejects⟩
      · exact ⟨other, hresult, hother.unique hrule⟩
      · exact absurd hrejects hrule.not_rejects

/-- The rules give a tree the sort of its value, and no sort if it has none. -/
theorem hasTag_iff_evaluate (e : Expr) (tag : Tag) :
    HasTag e tag ↔ ∃ value, e.evaluate = .ok value ∧ value.tag = tag := by
  constructor
  · intro htag
    exact htag.evaluate
  · intro hvalue
    rcases hvalue with ⟨value, hvalue, rfl⟩
    exact hasTag_of_evaluate hvalue

/-! ## Alike trees -/

/-- Two trees of the same shape, with literals of the same sorts. -/
inductive Alike : Expr → Expr → Prop where
  | literal {value value' : Value} (htag : value.tag = value'.tag) :
      Alike (.literal value) (.literal value')
  | grouping {inner inner' : Expr} (hinner : Alike inner inner') :
      Alike (.grouping inner) (.grouping inner')
  | unary {operator operator' : Token} {operand operand' : Expr}
      (hkind : operator.kind = operator'.kind) (hoperand : Alike operand operand') :
      Alike (.unary operator operand) (.unary operator' operand')
  | binary {left left' right right' : Expr} {operator operator' : Token}
      (hleft : Alike left left') (hkind : operator.kind = operator'.kind)
      (hright : Alike right right') :
      Alike (.binary left operator right) (.binary left' operator' right')
  | bare {value : BareValue} : Alike (.bare value) (.bare value)

/-- Alike trees have equally many nodes. -/
theorem Alike.length_postorder {e e' : Expr} (halike : Alike e e') :
    e.postorder.length = e'.postorder.length := by
  induction halike with
  | literal htag => rfl
  | grouping hinner ih => simp only [postorder, List.length_append, ih, List.length_singleton]
  | unary hkind hoperand ih =>
      simp only [postorder, List.length_append, ih, List.length_singleton]
  | binary hleft hkind hright ihleft ihright =>
      simp only [postorder, List.length_append, ihleft, ihright, List.length_singleton]
  | bare => rfl

/-! ## Alike outcomes -/

/-- Errors for the same reason: the same mismatch, or the same bare value. -/
inductive SameReason : EvalError → EvalError → Prop where
  | rejected {operator operator' : Token} {mismatch : Mismatch} :
      SameReason (.rejected operator mismatch) (.rejected operator' mismatch)
  | notExpression {value : BareValue} :
      SameReason (.notExpression value) (.notExpression value)

/-- Errors for the same reason have the same text. -/
theorem SameReason.message_eq {error error' : EvalError} (hsame : SameReason error error') :
    error.message = error'.message := by
  cases hsame <;> rfl

/-- Two trees have values of the same sort, or fail for the same reason and at the same
place. -/
inductive SameOutcome (e e' : Expr) : Prop where
  | success {value value' : Value} (hvalue : e.evaluate = .ok value)
      (hvalue' : e'.evaluate = .ok value') (htag : value.tag = value'.tag)
  | failure {place : Nat} {error error' : EvalError} (herror : e.evaluate = .error error)
      (herror' : e'.evaluate = .error error') (hreason : SameReason error error')
      (hfirst : FirstFailure e.postorder place error error.message)
      (hfirst' : FirstFailure e'.postorder place error' error'.message)

/-- Operators of one kind have the same outcome for alike operands with values. -/
theorem sameOutcome_unary {operator operator' : Token} {operand operand' : Expr}
    {value value' : Value} (hkind : operator.kind = operator'.kind)
    (halike : Alike operand operand') (hvalue : operand.evaluate = .ok value)
    (hvalue' : operand'.evaluate = .ok value') (htag : value.tag = value'.tag) :
    SameOutcome (.unary operator operand) (.unary operator' operand') := by
  have hnode := evaluate_unary_by_rule operator hvalue
  have hnode' := evaluate_unary_by_rule operator' hvalue'
  rw [← hkind, ← htag] at hnode'
  rcases hnode with ⟨result, hresult, hrule⟩ | ⟨mismatch, hresult, hrejects⟩
  · rcases hnode' with ⟨result', hresult', hrule'⟩ | ⟨mismatch', -, hrejects'⟩
    · exact .success hresult hresult' (hrule.unique hrule')
    · exact absurd hrejects' hrule.not_rejects
  · rcases hnode' with ⟨result', -, hrule'⟩ | ⟨mismatch', hresult', hrejects'⟩
    · exact absurd hrejects hrule'.not_rejects
    · cases Mismatch.message_injective (hrejects.unique hrejects')
      have hall := all_pass_of_evaluate hvalue
      have hall' := all_pass_of_evaluate hvalue'
      have hfirst := FirstFailure.last hall (Fails.unary hvalue hrejects rfl)
      rw [hkind, htag] at hrejects
      have hfirst' := FirstFailure.last hall' (Fails.unary hvalue' hrejects rfl)
      rw [← halike.length_postorder] at hfirst'
      exact .failure hresult hresult' .rejected hfirst hfirst'

/-- Operators of one kind have the same outcome for two alike operands with values. -/
theorem sameOutcome_binary {left left' right right' : Expr} {operator operator' : Token}
    {leftValue leftValue' rightValue rightValue' : Value}
    (hkind : operator.kind = operator'.kind) (hleft : Alike left left')
    (hright : Alike right right') (hleftValue : left.evaluate = .ok leftValue)
    (hleftValue' : left'.evaluate = .ok leftValue')
    (hrightValue : right.evaluate = .ok rightValue)
    (hrightValue' : right'.evaluate = .ok rightValue')
    (hleftTag : leftValue.tag = leftValue'.tag)
    (hrightTag : rightValue.tag = rightValue'.tag) :
    SameOutcome (.binary left operator right) (.binary left' operator' right') := by
  have hnode := evaluate_binary_by_rule operator hleftValue hrightValue
  have hnode' := evaluate_binary_by_rule operator' hleftValue' hrightValue'
  rw [← hkind, ← hleftTag, ← hrightTag] at hnode'
  rcases hnode with ⟨result, hresult, hrule⟩ | ⟨mismatch, hresult, hrejects⟩
  · rcases hnode' with ⟨result', hresult', hrule'⟩ | ⟨mismatch', -, hrejects'⟩
    · exact .success hresult hresult' (hrule.unique hrule')
    · exact absurd hrejects' hrule.not_rejects
  · rcases hnode' with ⟨result', -, hrule'⟩ | ⟨mismatch', hresult', hrejects'⟩
    · exact absurd hrejects hrule'.not_rejects
    · cases Mismatch.message_injective (hrejects.unique hrejects')
      have hall := List.forall_mem_append.2
        ⟨all_pass_of_evaluate hleftValue, all_pass_of_evaluate hrightValue⟩
      have hall' := List.forall_mem_append.2
        ⟨all_pass_of_evaluate hleftValue', all_pass_of_evaluate hrightValue'⟩
      have hfirst := FirstFailure.last hall (Fails.binary hleftValue hrightValue hrejects rfl)
      rw [hkind, hleftTag, hrightTag] at hrejects
      have hfirst' :=
        FirstFailure.last hall' (Fails.binary hleftValue' hrightValue' hrejects rfl)
      have hplace : (left.postorder ++ right.postorder).length =
          (left'.postorder ++ right'.postorder).length := by
        rw [List.length_append, List.length_append, hleft.length_postorder,
          hright.length_postorder]
      rw [← hplace] at hfirst'
      exact .failure hresult hresult' .rejected hfirst hfirst'

/-- Alike trees have the same outcome. -/
theorem Alike.sameOutcome {e e' : Expr} (halike : Alike e e') : SameOutcome e e' := by
  induction halike with
  | literal htag => exact .success rfl rfl htag
  | grouping hinner ih =>
      cases ih with
      | success hvalue hvalue' htag => exact .success hvalue hvalue' htag
      | failure herror herror' hreason hfirst hfirst' =>
          exact .failure herror herror' hreason (hfirst.append_right _)
            (hfirst'.append_right _)
  | unary hkind hoperand ih =>
      cases ih with
      | success hvalue hvalue' htag =>
          exact sameOutcome_unary hkind hoperand hvalue hvalue' htag
      | failure herror herror' hreason hfirst hfirst' =>
          exact .failure (evaluate_unary_of_error herror) (evaluate_unary_of_error herror')
            hreason (hfirst.append_right _) (hfirst'.append_right _)
  | binary hleft hkind hright ihleft ihright =>
      cases ihleft with
      | success hleftValue hleftValue' hleftTag =>
          cases ihright with
          | success hrightValue hrightValue' hrightTag =>
              exact sameOutcome_binary hkind hleft hright hleftValue hleftValue' hrightValue
                hrightValue' hleftTag hrightTag
          | failure herror herror' hreason hfirst hfirst' =>
              have hplace := hfirst.append_left (all_pass_of_evaluate hleftValue)
              have hplace' := hfirst'.append_left (all_pass_of_evaluate hleftValue')
              rw [← hleft.length_postorder] at hplace'
              exact .failure (evaluate_binary_of_right_error hleftValue herror)
                (evaluate_binary_of_right_error hleftValue' herror') hreason
                (hplace.append_right _) (hplace'.append_right _)
      | failure herror herror' hreason hfirst hfirst' =>
          exact .failure (evaluate_binary_of_left_error herror)
            (evaluate_binary_of_left_error herror') hreason
            ((hfirst.append_right _).append_right _)
            ((hfirst'.append_right _).append_right _)
  | bare => exact .failure rfl rfl .notExpression (.here .bare) (.here .bare)

/-- Alike trees have values of the same sort, which is the one that the rules give to
both, or they fail at the same place for the same reason and with the same text.  The
rules give a sort exactly to the trees that have a value. -/
theorem evaluate_alike {e e' : Expr} (halike : Alike e e') :
    SameOutcome e e' ∧
      (∀ error error', e.evaluate = .error error → e'.evaluate = .error error' →
        error.message = error'.message) ∧
      ∀ tag, (HasTag e tag ↔ HasTag e' tag) ∧
        (HasTag e tag ↔ ∃ value, e.evaluate = .ok value ∧ value.tag = tag) ∧
        (HasTag e' tag ↔ ∃ value, e'.evaluate = .ok value ∧ value.tag = tag) := by
  have houtcome := halike.sameOutcome
  refine ⟨houtcome, ?_, ?_⟩
  · intro error error' herror herror'
    cases houtcome with
    | success hvalue => cases hvalue.symm.trans herror
    | failure hother hother' hreason =>
        cases hother.symm.trans herror
        cases hother'.symm.trans herror'
        exact hreason.message_eq
  · intro tag
    refine ⟨?_, hasTag_iff_evaluate e tag, hasTag_iff_evaluate e' tag⟩
    rw [hasTag_iff_evaluate, hasTag_iff_evaluate]
    cases houtcome with
    | success hvalue hvalue' htag => simp [hvalue, hvalue', htag]
    | failure herror herror' => simp [herror, herror']

/-- The tree of a quotient of two numbers. -/
def quotient (x y : Binary64) : Expr :=
  .binary (.literal (.number x)) ⟨.slash, "/", .nil, 1⟩ (.literal (.number y))

/-- A quotient by zero is a number because a quotient by one is. -/
theorem evaluate_alike_quotient :
    Alike (quotient .one .one) (quotient .one (.zero false)) ∧
      SameOutcome (quotient .one .one) (quotient .one (.zero false)) ∧
      ∃ value, (quotient .one (.zero false)).evaluate = .ok value ∧ value.tag = .number := by
  have halike : Alike (quotient .one .one) (quotient .one (.zero false)) :=
    .binary (.literal rfl) rfl (.literal rfl)
  have hnumber : HasTag (quotient .one .one) .number :=
    .binary .literal .literal (.arithmetic (by simp))
  rcases evaluate_alike halike with ⟨houtcome, -, htags⟩
  rcases htags .number with ⟨hsame, -, hvalue⟩
  exact ⟨halike, houtcome, hvalue.1 (hsame.1 hnumber)⟩

end Expr
end Lox
