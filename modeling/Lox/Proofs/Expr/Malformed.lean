import Lox.Expr.Print
import Lox.Proofs.Expr.FirstFailure

/-!
# Malformed trees

A value that stands bare in a tree is found by the printer and by the evaluator alike: both go
through the tree from left to right, and the first bare value that they meet is their failure.
The printer has no other failure.  The evaluator may stop before at an operator that rejects its
operands, and then it has not met a bare value yet.

Main results:

- Theorem {lit}`print_by_bareValues`: a tree is printed, or its leftmost bare value is the
  failure.
- Theorem {lit}`evaluate_by_bareValues`: the bare value that evaluation meets is the leftmost
  one.
- Theorem {lit}`print_agrees_with_evaluate`: when printing fails, and how evaluation agrees with
  it.
-/

namespace Lox
namespace Expr

/-! ## Bare values -/

/-- The value of a bare node. -/
def bareValue? : Expr → Option BareValue
  | .bare value => some value
  | _ => none

/-- The bare values of a tree stand in the order of its nodes. -/
theorem bareValues_eq_filterMap (e : Expr) : e.bareValues = e.postorder.filterMap bareValue? := by
  induction e with
  | literal value => rfl
  | grouping inner ih => simp [bareValues, postorder, ih, bareValue?]
  | unary operator operand ih => simp [bareValues, postorder, ih, bareValue?]
  | binary left operator right ihleft ihright =>
      simp [bareValues, postorder, ihleft, ihright, bareValue?]
  | bare value => rfl

/-- The bare values of a tree are the values of its bare nodes. -/
theorem mem_bareValues_iff {e : Expr} {value : BareValue} :
    value ∈ e.bareValues ↔ .bare value ∈ e.postorder := by
  rw [bareValues_eq_filterMap, List.mem_filterMap]
  constructor
  · rintro ⟨node, hnode, hvalue⟩
    cases node with
    | bare other =>
        cases hvalue
        exact hnode
    | _ => cases hvalue
  · intro hnode
    exact ⟨_, hnode, rfl⟩

/-- There is a leftmost bare value exactly if there is a bare node. -/
theorem exists_head?_bareValues_iff (e : Expr) :
    (∃ value, e.bareValues.head? = some value) ↔ ∃ value, .bare value ∈ e.postorder := by
  constructor
  · rintro ⟨value, hhead⟩
    exact ⟨value, mem_bareValues_iff.1 (List.mem_of_head? hhead)⟩
  · rintro ⟨value, hnode⟩
    cases hlist : e.bareValues with
    | nil =>
        have hmem := mem_bareValues_iff.2 hnode
        rw [hlist] at hmem
        exact absurd hmem List.not_mem_nil
    | cons first rest => exact ⟨first, rfl⟩

/-- The leftmost bare value of the left operand comes first. -/
theorem head?_bareValues_of_left {left right : Expr} {operator : Token} {value : BareValue}
    (hleft : left.bareValues.head? = some value) :
    (binary left operator right).bareValues.head? = some value := by
  rw [bareValues, List.head?_append, hleft]
  rfl

/-- Without one, the leftmost bare value is that of the right operand. -/
theorem head?_bareValues_of_right {left right : Expr} {operator : Token} {value : BareValue}
    (hleft : left.bareValues = []) (hright : right.bareValues.head? = some value) :
    (binary left operator right).bareValues.head? = some value := by
  rw [bareValues, hleft, List.nil_append, hright]

/-! ## Printing -/

/-- A tree without bare values is printed; otherwise the leftmost one is the failure. -/
theorem print_by_bareValues (e : Expr) :
    (∃ text, e.print = .ok text ∧ e.bareValues = []) ∨
      ∃ value, e.print = .error (.notExpression value) ∧ e.bareValues.head? = some value := by
  induction e with
  | literal value => exact Or.inl ⟨value.text, rfl, rfl⟩
  | grouping inner ih =>
      rcases ih with ⟨text, htext, hnone⟩ | ⟨value, herror, hhead⟩
      · exact Or.inl ⟨_, by rw [print, htext]; rfl, hnone⟩
      · exact Or.inr ⟨value, by rw [print, herror]; rfl, hhead⟩
  | unary operator operand ih =>
      rcases ih with ⟨text, htext, hnone⟩ | ⟨value, herror, hhead⟩
      · exact Or.inl ⟨_, by rw [print, htext]; rfl, hnone⟩
      · exact Or.inr ⟨value, by rw [print, herror]; rfl, hhead⟩
  | binary left operator right ihleft ihright =>
      rcases ihleft with ⟨leftText, hleftText, hleft⟩ | ⟨value, herror, hhead⟩
      · rcases ihright with ⟨rightText, hrightText, hright⟩ | ⟨value, herror, hhead⟩
        · refine Or.inl ⟨_, by rw [print, hleftText, hrightText]; rfl, ?_⟩
          rw [bareValues, hleft, hright, List.nil_append]
        · exact Or.inr ⟨value, by rw [print, hleftText, herror]; rfl,
            head?_bareValues_of_right hleft hhead⟩
      · exact Or.inr ⟨value, by rw [print, herror]; rfl, head?_bareValues_of_left hhead⟩
  | bare value => exact Or.inr ⟨value, rfl, rfl⟩

/-- Printing fails exactly with the leftmost bare value. -/
theorem print_eq_error_iff (e : Expr) (error : PrintError) :
    e.print = .error error ↔
      ∃ value, e.bareValues.head? = some value ∧ error = .notExpression value := by
  rcases print_by_bareValues e with ⟨text, htext, hnone⟩ | ⟨value, herror, hhead⟩
  · simp [htext, hnone]
  · simp [herror, hhead, eq_comm]

/-! ## Evaluation -/

/-- A tree with a value has no bare values.  Evaluation that fails has met an operator that
rejects its operands, or the leftmost bare value. -/
theorem evaluate_by_bareValues (e : Expr) :
    (∃ value, e.evaluate = .ok value ∧ e.bareValues = []) ∨
      (∃ operator mismatch, e.evaluate = .error (.rejected operator mismatch)) ∨
      ∃ value, e.evaluate = .error (.notExpression value) ∧
        e.bareValues.head? = some value := by
  induction e with
  | literal value => exact Or.inl ⟨value, rfl, rfl⟩
  | grouping inner ih => exact ih
  | unary operator operand ih =>
      rcases ih with ⟨value, hvalue, hnone⟩ | ⟨other, mismatch, herror⟩ | ⟨value, herror, hhead⟩
      · rcases evaluate_unary_by_rule operator hvalue with
          ⟨result, hresult, -⟩ | ⟨mismatch, hresult, -⟩
        · exact Or.inl ⟨result, hresult, hnone⟩
        · exact Or.inr (Or.inl ⟨operator, mismatch, hresult⟩)
      · exact Or.inr (Or.inl ⟨other, mismatch, evaluate_unary_of_error herror⟩)
      · exact Or.inr (Or.inr ⟨value, evaluate_unary_of_error herror, hhead⟩)
  | binary left operator right ihleft ihright =>
      rcases ihleft with ⟨leftValue, hleftValue, hleft⟩ | ⟨other, mismatch, herror⟩ |
        ⟨value, herror, hhead⟩
      · rcases ihright with ⟨rightValue, hrightValue, hright⟩ | ⟨other, mismatch, herror⟩ |
          ⟨value, herror, hhead⟩
        · rcases evaluate_binary_by_rule operator hleftValue hrightValue with
            ⟨result, hresult, -⟩ | ⟨mismatch, hresult, -⟩
          · refine Or.inl ⟨result, hresult, ?_⟩
            rw [bareValues, hleft, hright, List.nil_append]
          · exact Or.inr (Or.inl ⟨operator, mismatch, hresult⟩)
        · exact Or.inr (Or.inl ⟨other, mismatch,
            evaluate_binary_of_right_error hleftValue herror⟩)
        · exact Or.inr (Or.inr ⟨value, evaluate_binary_of_right_error hleftValue herror,
            head?_bareValues_of_right hleft hhead⟩)
      · exact Or.inr (Or.inl ⟨other, mismatch, evaluate_binary_of_left_error herror⟩)
      · exact Or.inr (Or.inr ⟨value, evaluate_binary_of_left_error herror,
          head?_bareValues_of_left hhead⟩)
  | bare value => exact Or.inr (Or.inr ⟨value, rfl, rfl⟩)

/-- Nothing stands bare in a tree that has a value. -/
theorem bareValues_of_evaluate {e : Expr} {value : Value} (hvalue : e.evaluate = .ok value) :
    e.bareValues = [] := by
  rcases evaluate_by_bareValues e with ⟨other, -, hnone⟩ | ⟨operator, mismatch, herror⟩ |
    ⟨other, herror, -⟩
  · exact hnone
  · cases herror.symm.trans hvalue
  · cases herror.symm.trans hvalue

/-- What evaluation fails over is the leftmost bare value. -/
theorem head?_bareValues_of_evaluate {e : Expr} {value : BareValue}
    (herror : e.evaluate = .error (.notExpression value)) :
    e.bareValues.head? = some value := by
  rcases evaluate_by_bareValues e with ⟨other, hother, -⟩ | ⟨operator, mismatch, hother⟩ |
    ⟨other, hother, hhead⟩
  · cases hother.symm.trans herror
  · cases hother.symm.trans herror
  · cases hother.symm.trans herror
    exact hhead

/-! ## Agreement -/

/-- Printing fails exactly if a bare node is in the tree, and its only failure names the leftmost
bare value.  Where evaluation fails over a bare value, printing fails over the same one.  A tree
that is printed has a value or an operator that rejects its operands, and a tree with a value is
printed. -/
theorem print_agrees_with_evaluate (e : Expr) :
    ((∃ error, e.print = .error error) ↔ ∃ value, .bare value ∈ e.postorder) ∧
      (∀ error, e.print = .error error ↔
        ∃ value, e.bareValues.head? = some value ∧ error = .notExpression value ∧
          error.message = "Cannot print " ++ value.messageText) ∧
      (∀ value, e.evaluate = .error (.notExpression value) →
        (EvalError.notExpression value).message = "Cannot evaluate " ++ value.messageText ∧
          ∃ error, e.print = .error error ∧
            error.message = "Cannot print " ++ value.messageText) ∧
      ((∃ text, e.print = .ok text) →
        (∃ value, e.evaluate = .ok value) ∨
          ∃ operator mismatch, e.evaluate = .error (.rejected operator mismatch)) ∧
      ((∃ value, e.evaluate = .ok value) → ∃ text, e.print = .ok text) := by
  refine ⟨?_, ?_, ?_, ?_, ?_⟩
  · rw [← exists_head?_bareValues_iff]
    constructor
    · rintro ⟨error, herror⟩
      rcases (print_eq_error_iff e error).1 herror with ⟨value, hhead, -⟩
      exact ⟨value, hhead⟩
    · rintro ⟨value, hhead⟩
      exact ⟨_, (print_eq_error_iff e _).2 ⟨value, hhead, rfl⟩⟩
  · intro error
    rw [print_eq_error_iff]
    constructor
    · rintro ⟨value, hhead, rfl⟩
      exact ⟨value, hhead, rfl, rfl⟩
    · rintro ⟨value, hhead, herror, -⟩
      exact ⟨value, hhead, herror⟩
  · intro value herror
    have hhead := head?_bareValues_of_evaluate herror
    exact ⟨rfl, _, (print_eq_error_iff e _).2 ⟨value, hhead, rfl⟩, rfl⟩
  · rintro ⟨text, htext⟩
    rcases evaluate_by_bareValues e with ⟨value, hvalue, -⟩ | hrejected | ⟨value, -, hhead⟩
    · exact Or.inl ⟨value, hvalue⟩
    · exact Or.inr hrejected
    · cases htext.symm.trans ((print_eq_error_iff e _).2 ⟨value, hhead, rfl⟩)
  · rintro ⟨value, hvalue⟩
    rcases print_by_bareValues e with ⟨text, htext, -⟩ | ⟨other, -, hhead⟩
    · exact ⟨text, htext⟩
    · rw [bareValues_of_evaluate hvalue] at hhead
      cases hhead

/-- An operator that rejects its left operand hides what stands bare behind it from evaluation,
not from printing. -/
example :
    let e := binary (unary ⟨.minus, "-", .nil, 1⟩ (literal .nil)) ⟨.plus, "+", .nil, 1⟩
      (grouping (bare (Value.boolean true)))
    e.evaluate = .error (.rejected ⟨.minus, "-", .nil, 1⟩ .operandNotNumber) ∧
      e.print = .error (.notExpression (Value.boolean true)) :=
  ⟨rfl, rfl⟩

end Expr
end Lox
