import Lox.Token.Kind
import Lox.Value

/-!
# Tokens

A token is a kind, the lexeme that it was read from, the value of its literal
(nil unless it is a string or a number) and the line on which its lexeme ends.

Main results:

- Theorem {lit}`same_comm`: comparison of tokens does not depend on the order of
  its operands.
-/

namespace Lox

/-- A piece of the source text with its meaning. -/
structure Token where
  kind : Token.Kind
  lexeme : String
  literal : Value
  line : Nat
deriving DecidableEq

namespace Token

/-- The line of a token in a dump: its kind, lexeme and literal, with single
spaces between them. -/
def dump (token : Token) : String :=
  token.kind.name ++ " " ++ token.lexeme ++ " " ++ token.literal.spell .dump

/-- Comparison field by field.  Literals are compared loosely, so that a boolean
literal is the same as the number that stands for it. -/
def same (a b : Token) : Bool :=
  decide (a.kind = b.kind) && a.lexeme == b.lexeme &&
    a.literal.looselyEqual b.literal && a.line == b.line

/-- Comparison does not depend on the order of its operands. -/
theorem same_comm (a b : Token) : a.same b = b.same a := by
  have hliteral : a.literal.looselyEqual b.literal = b.literal.looselyEqual a.literal := by
    unfold Value.looselyEqual
    cases a.literal.asNumber? <;> cases b.literal.asNumber? <;>
      simp [Value.equal_comm, Binary64.equal_comm]
  simp [same, hliteral, eq_comm, BEq.comm]

end Token
end Lox
