import Lox.Numeral
import Lox.Scanner.Basic

/-!
# Steps of a scanner

A step takes characters into the current lexeme and may add a token or a fault.
Two steps can fail: an advance past the end of the text, and the reading of a
number from a lexeme that is no numeral.  A step that fails keeps the place that
it has reached.

Main results:

- Theorem {lit}`length_rest_scanToken`: a step that scans a lexeme leaves less
  text.
-/

namespace Lox

/-- Why a step of a scanner fails. -/
inductive ScanError where
  | pastEnd
  | malformedNumeral (text : String)
deriving DecidableEq

/-- The text of a failure. -/
def ScanError.message : ScanError → String
  | .pastEnd => "string index out of range"
  | .malformedNumeral text => "could not convert string to float: " ++ Text.quote text

/-- A step of a scanner: it changes the state, also where it fails. -/
abbrev ScanM := EStateM ScanError Scanner

namespace Scanner

/-! ## Single characters -/

/-- Take the next character into the lexeme. -/
def advance : ScanM Char := fun s =>
  match s.peek? with
  | some c => .ok c s.widen
  | none => .error .pastEnd s.widen

/-- Take the next character into the lexeme if it is the expected one, and tell
whether it is. -/
def accept (expected : Char) : ScanM Bool := fun s =>
  if s.peek? = some expected then .ok true s.widen else .ok false s

/-- Take all characters before the next one of the given kind into the lexeme, and
tell whether there is one. -/
def skipTo (expected : Char) : ScanM Bool := fun s =>
  let skipped := s.rest.takeWhile (· != expected)
  .ok (s.rest.contains expected) (s.consume skipped)

/-! ## Lexemes -/

/-- The characters between the first and the last one of the current lexeme. -/
def enclosed (s : Scanner) : List Char :=
  s.text.tail.take (s.width - 2)

/-- Add what the current lexeme means: a token, a fault or nothing.  The opening
line is the one on which the lexeme begins. -/
def emit (shape : Lexeme.Shape) (openingLine : Nat) : ScanM Unit := fun s =>
  match shape with
  | .blank => .ok () s
  | .lineBreak => .ok () { s with line := s.line + 1 }
  | .comment => .ok () s
  | .operator kind => .ok () (s.addToken kind .nil)
  | .string => .ok () (s.addToken .string (.string (String.ofList s.enclosed)))
  | .unterminated => .ok () (s.addFault openingLine .unterminatedString)
  | .number =>
    match Numeral.read? s.lexeme with
    | some x => .ok () (s.addToken .number (.number x))
    | none => .error (.malformedNumeral (String.ofList s.lexeme)) s
  | .word => .ok () (s.addToken (Lexeme.wordKind s.lexeme) .nil)
  | .unexpected => .ok () (s.addFault s.line .unexpectedCharacter)

/-- Take a tail of the given shape into the lexeme and add what it means. -/
def finish (shape : Lexeme.Shape) (tail : List Char) : ScanM Unit := fun s =>
  emit shape s.line (s.consume tail)

/-- Scan a string whose opening quote is taken. -/
def string : ScanM Unit := fun s =>
  let (shape, tail) := Lexeme.stringTail s.rest
  finish shape tail s

/-- Scan the rest of a number. -/
def number : ScanM Unit := fun s =>
  finish .number (Lexeme.numberTail s.rest) s

/-- Scan the rest of a word. -/
def identifier : ScanM Unit := fun s =>
  finish .word (Lexeme.wordTail s.rest) s

/-- Take the next character into the lexeme and scan the lexeme that it begins. -/
def scanToken : ScanM Unit := do
  let c ← advance
  fun s =>
    let (shape, tail) := Lexeme.tail c s.rest
    finish shape tail s

/-! ## Progress -/

/-- What a lexeme means is added without taking more text. -/
theorem rest_of_emit {shape : Lexeme.Shape} {openingLine : Nat} {s next : Scanner}
    (hemit : emit shape openingLine s = .ok () next) : next.rest = s.rest := by
  cases shape <;> simp only [emit] at hemit
  case number =>
    split at hemit
    · cases hemit
      rfl
    · cases hemit
  all_goals
    cases hemit
    rfl

/-- A step that scans a lexeme leaves less text. -/
theorem length_rest_scanToken {s next : Scanner}
    (hscan : scanToken s = .ok () next) : next.rest.length < s.rest.length := by
  unfold scanToken advance peek? at hscan
  cases hrest : s.rest with
  | nil => simp [hrest, bind, EStateM.bind] at hscan
  | cons c more =>
    simp only [hrest, List.head?_cons, bind, EStateM.bind, finish] at hscan
    rw [rest_of_emit hscan, length_rest_consume, rest_widen, hrest]
    simp only [List.tail_cons, List.length_cons]
    omega

end Scanner
end Lox
