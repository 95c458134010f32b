import Lox.Proofs.Expr.Rules

/-!
# The first failure of a tree

The nodes of a tree stand in an order: those of the operands from left to right, and
the operator behind them.  A value that stands bare fails, and so does an operator that
rejects the values of its operands.  Evaluation goes through the nodes in this order
and ends with the first one that fails.

Main results:

- Theorem {lit}`evaluate_by_node`: a tree has a value and no node that fails, or the
  failure of its first node that fails.
- Theorem {lit}`evaluate_first_failure`: success and every failure, told by the nodes.
-/

namespace Lox
namespace Expr

open Token.Kind (UnaryRule BinaryRule RejectsUnary RejectsBinary)

/-! ## Nodes -/

/-- The nodes of a tree, each of them behind the nodes of its operands. -/
def postorder : Expr → List Expr
  | .literal value => [.literal value]
  | .grouping inner => inner.postorder ++ [.grouping inner]
  | .unary operator operand => operand.postorder ++ [.unary operator operand]
  | .binary left operator right =>
    left.postorder ++ right.postorder ++ [.binary left operator right]
  | .bare value => [.bare value]

/-- A node fails with an error and its text. -/
inductive Fails : Expr → EvalError → String → Prop where
  | unary {operator : Token} {operand : Expr} {value : Value} {mismatch : Mismatch}
      {text : String} (hoperand : operand.evaluate = .ok value)
      (hrejects : RejectsUnary operator.kind value.tag text)
      (htext : mismatch.message = text) :
      Fails (.unary operator operand) (.rejected operator mismatch) text
  | binary {left right : Expr} {operator : Token} {leftValue rightValue : Value}
      {mismatch : Mismatch} {text : String} (hleft : left.evaluate = .ok leftValue)
      (hright : right.evaluate = .ok rightValue)
      (hrejects : RejectsBinary operator.kind leftValue.tag rightValue.tag text)
      (htext : mismatch.message = text) :
      Fails (.binary left operator right) (.rejected operator mismatch) text
  | bare {value : BareValue} :
      Fails (.bare value) (.notExpression value) ("Cannot evaluate " ++ value.messageText)

/-- A node does not fail. -/
def Passes (node : Expr) : Prop :=
  ∀ error text, ¬Fails node error text

/-- A node fails in one way. -/
theorem Fails.unique {node : Expr} {error error' : EvalError} {text text' : String}
    (hfails : Fails node error text) (hfails' : Fails node error' text') :
    error = error' := by
  cases hfails with
  | unary hoperand hrejects htext =>
      cases hfails' with
      | unary hoperand' hrejects' htext' =>
          cases hoperand.symm.trans hoperand'
          subst htext htext'
          rw [Mismatch.message_injective (hrejects.unique hrejects')]
  | binary hleft hright hrejects htext =>
      cases hfails' with
      | binary hleft' hright' hrejects' htext' =>
          cases hleft.symm.trans hleft'
          cases hright.symm.trans hright'
          subst htext htext'
          rw [Mismatch.message_injective (hrejects.unique hrejects')]
  | bare =>
      cases hfails'
      rfl

/-! ## The first node that fails -/

/-- The first node of a list that fails, by its place, with its error. -/
inductive FirstFailure : List Expr → Nat → EvalError → String → Prop where
  | here {node : Expr} {nodes : List Expr} {error : EvalError} {text : String}
      (hfails : Fails node error text) : FirstFailure (node :: nodes) 0 error text
  | later {node : Expr} {nodes : List Expr} {place : Nat} {error : EvalError}
      {text : String} (hpasses : Passes node)
      (hlater : FirstFailure nodes place error text) :
      FirstFailure (node :: nodes) (place + 1) error text

/-- More nodes behind do not change the first one that fails. -/
theorem FirstFailure.append_right {nodes : List Expr} {place : Nat} {error : EvalError}
    {text : String} (hfirst : FirstFailure nodes place error text) (more : List Expr) :
    FirstFailure (nodes ++ more) place error text := by
  induction hfirst with
  | here hfails => exact .here hfails
  | later hpasses hlater ih => exact .later hpasses ih

/-- Nodes that pass move the first one that fails back by their number. -/
theorem FirstFailure.append_left {before nodes : List Expr} {place : Nat}
    {error : EvalError} {text : String} (hbefore : ∀ node ∈ before, Passes node)
    (hfirst : FirstFailure nodes place error text) :
    FirstFailure (before ++ nodes) (place + before.length) error text := by
  induction before with
  | nil => exact hfirst
  | cons node before ih =>
      have hpasses := hbefore node List.mem_cons_self
      exact .later hpasses (ih fun other hmem => hbefore other (List.mem_cons_of_mem _ hmem))

/-- Behind nodes that pass, the last node is the first one that fails. -/
theorem FirstFailure.last {before : List Expr} {node : Expr} {error : EvalError}
    {text : String} (hbefore : ∀ other ∈ before, Passes other)
    (hfails : Fails node error text) :
    FirstFailure (before ++ [node]) before.length error text := by
  have hnode : FirstFailure [node] 0 error text := .here hfails
  have hmoved := hnode.append_left hbefore
  rw [Nat.zero_add] at hmoved
  exact hmoved

/-- Where all nodes pass, there is no first one that fails. -/
theorem FirstFailure.not_all_pass {nodes : List Expr} {place : Nat} {error : EvalError}
    {text : String} (hfirst : FirstFailure nodes place error text) :
    ¬∀ node ∈ nodes, Passes node := by
  intro hall
  induction hfirst with
  | here hfails => exact hall _ List.mem_cons_self _ _ hfails
  | later hpasses hlater ih => exact ih fun node hmem => hall node (List.mem_cons_of_mem _ hmem)

/-- One error is the first. -/
theorem FirstFailure.unique {nodes : List Expr} {place place' : Nat}
    {error error' : EvalError} {text text' : String}
    (hfirst : FirstFailure nodes place error text)
    (hfirst' : FirstFailure nodes place' error' text') : error = error' := by
  induction hfirst generalizing place' with
  | here hfails =>
      cases hfirst' with
      | here hfails' => exact hfails.unique hfails'
      | later hpasses hlater => exact absurd hfails (hpasses _ _)
  | later hpasses hlater ih =>
      cases hfirst' with
      | here hfails' => exact absurd hfails' (hpasses _ _)
      | later hpasses' hlater' => exact ih hlater'

/-! ## Operators with operands -/

/-- An operator with a value for its operand has a value by a rule, or rejects it. -/
theorem evaluate_unary_by_rule (operator : Token) {operand : Expr} {value : Value}
    (hoperand : operand.evaluate = .ok value) :
    (∃ result, (unary operator operand).evaluate = .ok result ∧
        UnaryRule operator.kind value.tag result.tag) ∨
      ∃ mismatch, (unary operator operand).evaluate = .error (.rejected operator mismatch) ∧
        RejectsUnary operator.kind value.tag mismatch.message := by
  rw [evaluate_unary_of_ok hoperand]
  rcases operator.kind.applyUnary_by_rule value with
    ⟨result, hresult, hrule⟩ | ⟨mismatch, hresult, hrejects⟩
  · rw [hresult]
    exact Or.inl ⟨result, rfl, hrule⟩
  · rw [hresult]
    exact Or.inr ⟨mismatch, rfl, hrejects⟩

/-- An operator with values for its operands has a value by a rule, or rejects them. -/
theorem evaluate_binary_by_rule {left right : Expr} (operator : Token)
    {leftValue rightValue : Value} (hleft : left.evaluate = .ok leftValue)
    (hright : right.evaluate = .ok rightValue) :
    (∃ result, (binary left operator right).evaluate = .ok result ∧
        BinaryRule operator.kind leftValue.tag rightValue.tag result.tag) ∨
      ∃ mismatch,
        (binary left operator right).evaluate = .error (.rejected operator mismatch) ∧
          RejectsBinary operator.kind leftValue.tag rightValue.tag mismatch.message := by
  rw [evaluate_binary_of_ok hleft hright]
  rcases operator.kind.applyBinary_by_rule leftValue rightValue with
    ⟨result, hresult, hrule⟩ | ⟨mismatch, hresult, hrejects⟩
  · rw [hresult]
    exact Or.inl ⟨result, rfl, hrule⟩
  · rw [hresult]
    exact Or.inr ⟨mismatch, rfl, hrejects⟩

/-- The failure of an operand is the failure of its operator. -/
theorem evaluate_unary_of_error {operator : Token} {operand : Expr} {error : EvalError}
    (hoperand : operand.evaluate = .error error) :
    (unary operator operand).evaluate = .error error := by
  rw [evaluate, hoperand]
  rfl

/-- The failure of the left operand hides what the right one does. -/
theorem evaluate_binary_of_left_error {left right : Expr} {operator : Token}
    {error : EvalError} (hleft : left.evaluate = .error error) :
    (binary left operator right).evaluate = .error error := by
  rw [evaluate, hleft]
  rfl

/-- The failure of the right operand counts once the left one has a value. -/
theorem evaluate_binary_of_right_error {left right : Expr} {operator : Token}
    {value : Value} {error : EvalError} (hleft : left.evaluate = .ok value)
    (hright : right.evaluate = .error error) :
    (binary left operator right).evaluate = .error error := by
  rw [evaluate, hleft, hright]
  rfl

/-- An operator with a value has a value for its operand and a rule. -/
theorem operand_of_evaluate_unary {operator : Token} {operand : Expr} {result : Value}
    (hresult : (unary operator operand).evaluate = .ok result) :
    ∃ value, operand.evaluate = .ok value ∧
      UnaryRule operator.kind value.tag result.tag := by
  cases hoperand : operand.evaluate with
  | error error => cases (evaluate_unary_of_error hoperand).symm.trans hresult
  | ok value =>
      rcases evaluate_unary_by_rule operator hoperand with
        ⟨other, hother, hrule⟩ | ⟨mismatch, hother, -⟩
      · cases hother.symm.trans hresult
        exact ⟨value, rfl, hrule⟩
      · cases hother.symm.trans hresult

/-- An operator with a value has values for its operands and a rule. -/
theorem operands_of_evaluate_binary {left right : Expr} {operator : Token} {result : Value}
    (hresult : (binary left operator right).evaluate = .ok result) :
    ∃ leftValue rightValue, left.evaluate = .ok leftValue ∧ right.evaluate = .ok rightValue ∧
      BinaryRule operator.kind leftValue.tag rightValue.tag result.tag := by
  cases hleft : left.evaluate with
  | error error => cases (evaluate_binary_of_left_error hleft).symm.trans hresult
  | ok leftValue =>
      cases hright : right.evaluate with
      | error error => cases (evaluate_binary_of_right_error hleft hright).symm.trans hresult
      | ok rightValue =>
          rcases evaluate_binary_by_rule operator hleft hright with
            ⟨other, hother, hrule⟩ | ⟨mismatch, hother, -⟩
          · cases hother.symm.trans hresult
            exact ⟨leftValue, rightValue, rfl, rfl, hrule⟩
          · cases hother.symm.trans hresult

/-- A literal passes. -/
theorem passes_literal (value : Value) : Passes (.literal value) := by
  intro error text hfails
  cases hfails

/-- A grouping passes. -/
theorem passes_grouping (inner : Expr) : Passes (.grouping inner) := by
  intro error text hfails
  cases hfails

/-- An operator with a rule for its operand passes. -/
theorem passes_unary {operator : Token} {operand : Expr} {value : Value}
    {result : Value.Tag} (hoperand : operand.evaluate = .ok value)
    (hrule : UnaryRule operator.kind value.tag result) : Passes (.unary operator operand) := by
  intro error text hfails
  cases hfails with
  | unary hoperand' hrejects htext =>
      cases hoperand.symm.trans hoperand'
      exact hrule.not_rejects hrejects

/-- An operator with a rule for its operands passes. -/
theorem passes_binary {left right : Expr} {operator : Token} {leftValue rightValue : Value}
    {result : Value.Tag} (hleft : left.evaluate = .ok leftValue)
    (hright : right.evaluate = .ok rightValue)
    (hrule : BinaryRule operator.kind leftValue.tag rightValue.tag result) :
    Passes (.binary left operator right) := by
  intro error text hfails
  cases hfails with
  | binary hleft' hright' hrejects htext =>
      cases hleft.symm.trans hleft'
      cases hright.symm.trans hright'
      exact hrule.not_rejects hrejects

/-! ## Evaluation -/

/-- Where nodes pass, they pass with another one that passes behind them. -/
theorem all_pass_append {before : List Expr} {node : Expr}
    (hbefore : ∀ other ∈ before, Passes other) (hnode : Passes node) :
    ∀ other ∈ before ++ [node], Passes other :=
  List.forall_mem_append.2 ⟨hbefore, List.forall_mem_singleton.2 hnode⟩

/-- A tree has a value and no node that fails, or the failure of its first node that
fails. -/
theorem evaluate_by_node (e : Expr) :
    (∃ value, e.evaluate = .ok value ∧ ∀ node ∈ e.postorder, Passes node) ∨
      ∃ error place, e.evaluate = .error error ∧
        FirstFailure e.postorder place error error.message := by
  -- An operand with a value has no node that fails, so that the first failure of what
  -- follows it is the first one of the whole.
  induction e with
  | literal value =>
      exact Or.inl ⟨value, rfl, List.forall_mem_singleton.2 (passes_literal value)⟩
  | grouping inner ih =>
      rcases ih with ⟨value, hvalue, hall⟩ | ⟨error, place, herror, hfirst⟩
      · exact Or.inl ⟨value, hvalue, all_pass_append hall (passes_grouping inner)⟩
      · exact Or.inr ⟨error, place, herror, hfirst.append_right _⟩
  | unary operator operand ih =>
      rcases ih with ⟨value, hvalue, hall⟩ | ⟨error, place, herror, hfirst⟩
      · rcases evaluate_unary_by_rule operator hvalue with
          ⟨result, hresult, hrule⟩ | ⟨mismatch, hresult, hrejects⟩
        · have hpasses := passes_unary hvalue hrule
          exact Or.inl ⟨result, hresult, all_pass_append hall hpasses⟩
        · have hfails := Fails.unary hvalue hrejects rfl
          exact Or.inr ⟨_, _, hresult, .last hall hfails⟩
      · exact Or.inr ⟨error, place, evaluate_unary_of_error herror, hfirst.append_right _⟩
  | binary left operator right ihleft ihright =>
      rcases ihleft with ⟨leftValue, hleft, hleftAll⟩ | ⟨error, place, herror, hfirst⟩
      · rcases ihright with ⟨rightValue, hright, hrightAll⟩ | ⟨error, place, herror, hfirst⟩
        · have hall := List.forall_mem_append.2 ⟨hleftAll, hrightAll⟩
          rcases evaluate_binary_by_rule operator hleft hright with
            ⟨result, hresult, hrule⟩ | ⟨mismatch, hresult, hrejects⟩
          · have hpasses := passes_binary hleft hright hrule
            exact Or.inl ⟨result, hresult, all_pass_append hall hpasses⟩
          · have hfails := Fails.binary hleft hright hrejects rfl
            exact Or.inr ⟨_, _, hresult, .last hall hfails⟩
        · have hplace := (hfirst.append_left hleftAll).append_right
            [.binary left operator right]
          exact Or.inr ⟨error, _, evaluate_binary_of_right_error hleft herror, hplace⟩
      · have hplace := (hfirst.append_right right.postorder).append_right
          [.binary left operator right]
        exact Or.inr ⟨error, place, evaluate_binary_of_left_error herror, hplace⟩
  | bare value => exact Or.inr ⟨.notExpression value, 0, rfl, .here .bare⟩

/-- No node of a tree with a value fails. -/
theorem all_pass_of_evaluate {e : Expr} {value : Value} (hvalue : e.evaluate = .ok value) :
    ∀ node ∈ e.postorder, Passes node := by
  rcases evaluate_by_node e with ⟨other, hother, hall⟩ | ⟨error, place, herror, hfirst⟩
  · exact hall
  · cases herror.symm.trans hvalue

/-- A tree has a value exactly if none of its nodes fails, and an error exactly if it is
the one of the first node that fails. -/
theorem evaluate_first_failure (e : Expr) :
    ((∃ value, e.evaluate = .ok value) ↔ ∀ node ∈ e.postorder, Passes node) ∧
      ∀ error, e.evaluate = .error error ↔
        ∃ place, FirstFailure e.postorder place error error.message := by
  rcases evaluate_by_node e with ⟨value, hvalue, hall⟩ | ⟨error, place, herror, hfirst⟩
  · refine ⟨iff_of_true ⟨value, hvalue⟩ hall, ?_⟩
    intro error
    rw [hvalue]
    refine iff_of_false nofun ?_
    intro hplace
    rcases hplace with ⟨place, hfirst⟩
    exact hfirst.not_all_pass hall
  · rw [herror]
    refine ⟨iff_of_false nofun hfirst.not_all_pass, ?_⟩
    intro other
    constructor
    · intro heq
      cases heq
      exact ⟨place, hfirst⟩
    · intro hplace
      rcases hplace with ⟨place', hfirst'⟩
      rw [hfirst.unique hfirst']

/-- A bare value on the right fails before the operator can reject the left operand. -/
example (operator : Token) (value : BareValue) :
    (binary (literal .nil) operator (bare value)).evaluate = .error (.notExpression value) :=
  rfl

end Expr
end Lox
