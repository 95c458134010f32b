import Lox.Token.Basic

/-!
# Expressions

An expression is a literal, a grouping, or an operator with one or two operands.
The operator is a token: its kind decides what the operator does and its lexeme
how it is printed.  A value, or any other thing that has a text, may also stand bare
where an expression is expected; such a tree can be neither evaluated nor printed.

Trees have any depth.  A walk over a tree takes as much of the call stack as the tree
is deep, and on a machine whose stack is bounded it fails for trees that are too deep;
this bound is a resource of the machine and no part of the model.

Main results:

- Theorem {lit}`bareValues_eq_nil_iff`: a tree is well formed exactly if no value
  stands bare in it.
-/

namespace Lox

/-- What may stand bare where an expression is expected: a value, or a thing of any other make,
which is known by its text alone. -/
inductive BareValue where
  | value (value : Value)
  | other (text : String)
deriving DecidableEq, Inhabited

/-- A value stands bare as it is. -/
instance : Coe Value BareValue :=
  ⟨.value⟩

/-- The text of a bare value in a message. -/
def BareValue.messageText : BareValue → String
  | .value v => v.spell .message
  | .other text => text

/-- An expression tree. -/
inductive Expr where
  | literal (value : Value)
  | grouping (inner : Expr)
  | unary (operator : Token) (operand : Expr)
  | binary (left : Expr) (operator : Token) (right : Expr)
  | bare (value : BareValue)
deriving DecidableEq, Inhabited

namespace Expr

/-- The values that stand bare in a tree, from left to right. -/
def bareValues : Expr → List BareValue
  | .literal _ => []
  | .grouping inner => inner.bareValues
  | .unary _ operand => operand.bareValues
  | .binary left _ right => left.bareValues ++ right.bareValues
  | .bare value => [value]

/-- No value stands bare in the tree. -/
def wellFormed : Expr → Bool
  | .literal _ => true
  | .grouping inner => inner.wellFormed
  | .unary _ operand => operand.wellFormed
  | .binary left _ right => left.wellFormed && right.wellFormed
  | .bare _ => false

/-- A tree is well formed exactly if no value stands bare in it. -/
theorem bareValues_eq_nil_iff (e : Expr) : e.bareValues = [] ↔ e.wellFormed = true := by
  induction e with
  | literal value => simp [bareValues, wellFormed]
  | grouping inner ih => simpa [bareValues, wellFormed] using ih
  | unary operator operand ih => simpa [bareValues, wellFormed] using ih
  | binary left operator right ihleft ihright =>
    simp [bareValues, wellFormed, ihleft, ihright]
  | bare value => simp [bareValues, wellFormed]

end Expr
end Lox
