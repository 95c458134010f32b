import Lox.Lexeme
import Lox.Token.Basic

/-!
# The state of a scanner

A scanner stands in its source text at the place where the current lexeme starts,
and has gone on from there by the width of that lexeme.  It counts lines, and
collects tokens and faults.

The width is a count, not a piece of the text: a step past the end of the text
widens the lexeme all the same, and the text of the lexeme then ends where the
source does.

Main results:

- Theorem {lit}`rest_eq_drop_current`: what is left is the source from the current
  place on.
- Theorem {lit}`rest_consume`: consuming the beginning of what is left leaves what
  follows it.
-/

namespace Lox

/-! ## Faults -/

/-- Why a piece of text is no lexeme. -/
inductive Fault.Cause where
  | unexpectedCharacter
  | unterminatedString
deriving DecidableEq

/-- A piece of text that is no lexeme, and its line.  A string that is not closed
counts for the line of its opening quote. -/
structure Fault where
  line : Nat
  cause : Fault.Cause
deriving DecidableEq

/-- The text of a fault in a report. -/
def Fault.message (fault : Fault) : String :=
  match fault.cause with
  | .unexpectedCharacter => "Unexpected character."
  | .unterminatedString => "Unterminated string."

/-! ## Scanners -/

/-- A scanner at work on a source text.  The field {lit}`text` is the source from
the start of the current lexeme on. -/
structure Scanner where
  source : List Char
  start : Nat
  text : List Char
  width : Nat
  line : Nat
  tokens : Array Token
  faults : Array Fault
  text_eq : text = source.drop start

namespace Scanner

/-- A scanner at the beginning of a text. -/
def ofText (source : List Char) : Scanner where
  source := source
  start := 0
  text := source
  width := 0
  line := 1
  tokens := #[]
  faults := #[]
  text_eq := rfl

/-- A scanner at the beginning of a source. -/
def ofSource (source : String) : Scanner :=
  ofText source.toList

/-! ## Views -/

/-- The place behind the current lexeme. -/
def current (s : Scanner) : Nat :=
  s.start + s.width

/-- The text of the current lexeme. -/
def lexeme (s : Scanner) : List Char :=
  s.text.take s.width

/-- The text behind the current lexeme. -/
def rest (s : Scanner) : List Char :=
  s.text.drop s.width

/-- What is left is the source from the current place on. -/
theorem rest_eq_drop_current (s : Scanner) : s.rest = s.source.drop s.current := by
  rw [rest, s.text_eq, List.drop_drop, current]

/-- Nothing is left. -/
def isAtEnd (s : Scanner) : Bool :=
  s.rest.isEmpty

/-- The next character, if there is one. -/
def peek? (s : Scanner) : Option Char :=
  s.rest.head?

/-- The character behind the next one, if there is one. -/
def peekNext? (s : Scanner) : Option Char :=
  s.rest.tail.head?

/-! ## Moves -/

/-- Begin a new lexeme at the current place. -/
def mark (s : Scanner) : Scanner :=
  { s with
    start := s.current
    text := s.rest
    width := 0
    text_eq := s.rest_eq_drop_current }

/-- Take one more place into the current lexeme. -/
def widen (s : Scanner) : Scanner :=
  { s with width := s.width + 1 }

/-- Take a piece of text into the current lexeme and count its lines. -/
def consume (s : Scanner) (piece : List Char) : Scanner :=
  { s with
    width := s.width + piece.length
    line := s.line + piece.count '\n' }

@[simp]
theorem rest_mark (s : Scanner) : s.mark.rest = s.rest := by
  simp [rest, mark]

@[simp]
theorem rest_widen (s : Scanner) : s.widen.rest = s.rest.tail := by
  simp [rest, widen]

/-- Consuming the beginning of what is left leaves what follows it. -/
theorem rest_consume {s : Scanner} {piece more : List Char}
    (hrest : s.rest = piece ++ more) : (s.consume piece).rest = more := by
  have hdrop : (s.consume piece).rest = s.rest.drop piece.length := by
    simp [rest, consume]
  rw [hdrop, hrest, List.drop_left]

theorem length_rest_consume (s : Scanner) (piece : List Char) :
    (s.consume piece).rest.length = s.rest.length - piece.length := by
  simp only [rest, consume, List.length_drop]
  omega

/-! ## Products -/

/-- Add a token for the current lexeme. -/
def addToken (s : Scanner) (kind : Token.Kind) (literal : Value) : Scanner :=
  { s with tokens := s.tokens.push ⟨kind, String.ofList s.lexeme, literal, s.line⟩ }

/-- Add the token that ends a text.  It has no lexeme. -/
def addEnd (s : Scanner) : Scanner :=
  { s with tokens := s.tokens.push ⟨.endOfText, "", .nil, s.line⟩ }

/-- Add a fault. -/
def addFault (s : Scanner) (line : Nat) (cause : Fault.Cause) : Scanner :=
  { s with faults := s.faults.push ⟨line, cause⟩ }

@[simp]
theorem rest_addToken (s : Scanner) (kind : Token.Kind) (literal : Value) :
    (s.addToken kind literal).rest = s.rest :=
  rfl

@[simp]
theorem rest_addFault (s : Scanner) (line : Nat) (cause : Fault.Cause) :
    (s.addFault line cause).rest = s.rest :=
  rfl

end Scanner
end Lox
