import Lox.Scanner.Run

/-!
# Calls on a scanner

Every operation on a scanner is a call, so that a history of a scanner is a list of
calls.  A call answers, or fails; its effect on the scanner stays either way, and
the next call goes on from there.

Main results:

- Theorem {lit}`performAll_append`: a history goes on where an earlier one ended.
-/

namespace Lox
namespace Scanner

/-- An operation on a scanner. -/
inductive Call where
  | isAtEnd
  | peek
  | peekNext
  | advance
  | accept (expected : Char)
  | skipTo (expected : Char)
  | string
  | number
  | identifier
  | scanToken
  | addToken (kind : Token.Kind) (literal : Value)
  | mark
  | scanTokens

/-- What a call answers. -/
inductive Answer where
  | done
  | flag (value : Bool)
  | character (value : Option Char)
  | tokens (value : Array Token)

/-- Perform a call. -/
def perform : Call → ScanM Answer
  | .isAtEnd => do return .flag (← get).isAtEnd
  | .peek => do return .character (← get).peek?
  | .peekNext => do return .character (← get).peekNext?
  | .advance => do return .character (some (← advance))
  | .accept expected => do return .flag (← accept expected)
  | .skipTo expected => do return .flag (← skipTo expected)
  | .string => do string; return .done
  | .number => do number; return .done
  | .identifier => do identifier; return .done
  | .scanToken => do scanToken; return .done
  | .addToken kind literal => do modify (·.addToken kind literal); return .done
  | .mark => do modify mark; return .done
  | .scanTokens => do return .tokens (← scanTokens)

/-- The answer to a call, and the scanner after it. -/
def call (s : Scanner) (c : Call) : Except ScanError Answer × Scanner :=
  match perform c s with
  | .ok answer next => (.ok answer, next)
  | .error error next => (.error error, next)

/-- The scanner after a history of calls. -/
def performAll (s : Scanner) (history : List Call) : Scanner :=
  history.foldl (fun s c => (s.call c).2) s

/-- A history goes on where an earlier one ended. -/
theorem performAll_append (s : Scanner) (earlier later : List Call) :
    s.performAll (earlier ++ later) = (s.performAll earlier).performAll later := by
  simp [performAll]

end Scanner
end Lox
