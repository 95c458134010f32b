import Lox.Expr.Basic

/-!
# Printing

The printed form of an expression puts every operator in front of its operands, in
parentheses.  A grouping is printed like an operator named {lit}`group`, and a
literal as its text.

A tree of any depth is printed; the bound that a call stack sets is left out.

Main results:

- Theorem {lit}`print_literal`: a literal is printed as its text.
-/

namespace Lox

/-- Why an expression has no printed form. -/
inductive PrintError where
  | notExpression (value : BareValue)
deriving DecidableEq

/-- The text of a failure. -/
def PrintError.message : PrintError → String
  | .notExpression value => "Cannot print " ++ value.messageText

namespace Expr

/-- A name and the printed forms of its operands in parentheses, with single
spaces between them. -/
def parenthesize (name : String) (operands : List String) : String :=
  "(" ++ name ++ " " ++ " ".intercalate operands ++ ")"

/-- The printed form of an expression. -/
def print : Expr → Except PrintError String
  | .literal value => .ok value.text
  | .grouping inner => do
    return parenthesize "group" [← inner.print]
  | .unary operator operand => do
    return parenthesize operator.lexeme [← operand.print]
  | .binary left operator right => do
    return parenthesize operator.lexeme [← left.print, ← right.print]
  | .bare value => .error (.notExpression value)

/-- A literal is printed as its text. -/
@[simp]
theorem print_literal (value : Value) : (literal value).print = .ok value.text :=
  rfl

end Expr
end Lox
