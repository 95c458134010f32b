import Lox.Binary64.Arithmetic
import Lox.Expr.Basic

/-!
# Evaluation

Operands are evaluated from left to right, and an operator is applied once all of
them have values.  Equality takes any two values.  A sum takes two numbers or two
strings.  Every other binary operator takes two numbers, and this is checked before
the operator itself is found to be unknown.

A tree of any depth is evaluated; the bound that a call stack sets is left out.

Main results:

- Theorem {lit}`applyBinary_equalEqual`, {lit}`applyBinary_bangEqual`: equality never
  fails.
- Theorem {lit}`evaluate_grouping`: a grouping has the outcome of its inner
  expression.
- Theorem {lit}`evaluate_unary_of_ok`, {lit}`evaluate_binary_of_ok`: an operator is
  applied to the values of its operands.
-/

namespace Lox

/-! ## Failures -/

/-- Why an operator rejects its operands. -/
inductive Mismatch where
  | operandNotNumber
  | operandsNotNumbers
  | operandsNotNumbersOrStrings
  | unknownUnary
  | unknownBinary
deriving DecidableEq

/-- The text of a mismatch. -/
def Mismatch.message : Mismatch → String
  | .operandNotNumber => "Operand must be a number."
  | .operandsNotNumbers => "Operands must be numbers."
  | .operandsNotNumbersOrStrings => "Operands must be two numbers or two strings."
  | .unknownUnary => "Unexpected unary operation."
  | .unknownBinary => "Unexpected binary operation."

/-- Why an expression has no value: an operator rejects its operands, or a bare value
stands where an expression is expected. -/
inductive EvalError where
  | rejected (operator : Token) (mismatch : Mismatch)
  | notExpression (value : BareValue)
deriving DecidableEq

/-- The text of a failure. -/
def EvalError.message : EvalError → String
  | .rejected _ mismatch => mismatch.message
  | .notExpression value => "Cannot evaluate " ++ value.messageText

/-! ## Operators -/

namespace Token.Kind

/-- The value of a unary operator. -/
def applyUnary (kind : Kind) (operand : Value) : Except Mismatch Value :=
  match kind with
  | .minus =>
    match operand with
    | .number x => .ok (.number (-x))
    | _ => .error .operandNotNumber
  | .bang => .ok (.boolean !operand.truthy)
  | _ => .error .unknownUnary

/-- The value of an operator on two numbers, if it has one. -/
def onNumbers? (kind : Kind) (x y : Binary64) : Option Value :=
  match kind with
  | .plus => some (.number (x + y))
  | .minus => some (.number (x - y))
  | .star => some (.number (x * y))
  | .slash => some (.number (x / y))
  | .greater => some (.boolean (y.less x))
  | .greaterEqual => some (.boolean (y.lessEqual x))
  | .less => some (.boolean (x.less y))
  | .lessEqual => some (.boolean (x.lessEqual y))
  | _ => none

/-- The mismatch of operands that are not two numbers. -/
def wrongOperands (kind : Kind) : Mismatch :=
  if kind = .plus then .operandsNotNumbersOrStrings else .operandsNotNumbers

/-- The value of an operator that is no equality. -/
def combine (kind : Kind) : Value → Value → Except Mismatch Value
  | .number x, .number y =>
    match kind.onNumbers? x y with
    | some value => .ok value
    | none => .error .unknownBinary
  | .string s, .string t =>
    if kind = .plus then .ok (.string (s ++ t)) else .error kind.wrongOperands
  | _, _ => .error kind.wrongOperands

/-- The value of a binary operator. -/
def applyBinary (kind : Kind) (left right : Value) : Except Mismatch Value :=
  match kind with
  | .equalEqual => .ok (.boolean (left.equal right))
  | .bangEqual => .ok (.boolean !left.equal right)
  | kind => kind.combine left right

@[simp]
theorem applyBinary_equalEqual (left right : Value) :
    applyBinary .equalEqual left right = .ok (.boolean (left.equal right)) :=
  rfl

@[simp]
theorem applyBinary_bangEqual (left right : Value) :
    applyBinary .bangEqual left right = .ok (.boolean !left.equal right) :=
  rfl

end Token.Kind

/-! ## Expressions -/

namespace Expr

/-- The value of an expression, or the first failure on the way to it. -/
def evaluate : Expr → Except EvalError Value
  | .literal value => .ok value
  | .grouping inner => inner.evaluate
  | .unary operator operand => do
    let value ← operand.evaluate
    (operator.kind.applyUnary value).mapError (.rejected operator)
  | .binary left operator right => do
    let leftValue ← left.evaluate
    let rightValue ← right.evaluate
    (operator.kind.applyBinary leftValue rightValue).mapError (.rejected operator)
  | .bare value => .error (.notExpression value)

/-- A literal has its value. -/
@[simp]
theorem evaluate_literal (value : Value) : (literal value).evaluate = .ok value :=
  rfl

/-- A grouping has the outcome of its inner expression. -/
@[simp]
theorem evaluate_grouping (inner : Expr) :
    (grouping inner).evaluate = inner.evaluate :=
  rfl

/-- A unary operator is applied to the value of its operand. -/
theorem evaluate_unary_of_ok {operator : Token} {operand : Expr} {value : Value}
    (hoperand : operand.evaluate = .ok value) :
    (unary operator operand).evaluate =
      (operator.kind.applyUnary value).mapError (.rejected operator) := by
  rw [evaluate, hoperand]
  rfl

/-- A binary operator is applied to the values of its operands. -/
theorem evaluate_binary_of_ok {left right : Expr} {operator : Token}
    {leftValue rightValue : Value} (hleft : left.evaluate = .ok leftValue)
    (hright : right.evaluate = .ok rightValue) :
    (binary left operator right).evaluate =
      (operator.kind.applyBinary leftValue rightValue).mapError (.rejected operator) := by
  rw [evaluate, hleft, hright]
  rfl

/-- An operator that takes the values of its operands makes its result of them. -/
theorem evaluate_binary_of_applyBinary {left right : Expr} {operator : Token}
    {leftValue rightValue result : Value} (hleft : left.evaluate = .ok leftValue)
    (hright : right.evaluate = .ok rightValue)
    (hresult : operator.kind.applyBinary leftValue rightValue = .ok result) :
    (binary left operator right).evaluate = .ok result := by
  rw [evaluate_binary_of_ok hleft hright, hresult]
  rfl

/-- The text of the value of an expression. -/
def interpret (e : Expr) : Except EvalError String :=
  e.evaluate.map Value.text

end Expr
end Lox
