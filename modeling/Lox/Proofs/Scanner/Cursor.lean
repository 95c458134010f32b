import Lox.Scanner.Call

/-!
# Cursors

A cursor is a scanner that keeps no text apart from its source.  It knows two places, reads
the source at places and between them, and goes on one place at a time.  What a scanner cannot
get wrong may fail here: a place may lie before the text, and a loop may have no rounds left.
Which texts are converted to numbers is seen by the conversion, which is a parameter.

Main results:

- Theorem {lit}`bind_of_ok`: a step whose outcome is known hands it to the next one.
-/

namespace Lox

/-- A scanner by its places.  A place below zero lies before the text. -/
structure Cursor where
  source : List Char
  start : Int
  current : Int
  line : Nat
  tokens : Array Token
  faults : Array Fault

/-- Why a step of a cursor fails: as a step of a scanner does, at a place before the text, or
in a loop that has no rounds left. -/
inductive Cursor.Failure where
  | scan (error : ScanError)
  | beforeText
  | endless

/-- A step of a cursor. -/
abbrev CursorM := EStateM Cursor.Failure Cursor

namespace Cursor

/-- A cursor at the beginning of a source. -/
def ofSource (source : String) : Cursor where
  source := source.toList
  start := 0
  current := 0
  line := 1
  tokens := #[]
  faults := #[]

/-! ## Reading at places -/

/-- The character at a place. -/
def readAt (place : Int) : CursorM Char := fun s =>
  match place with
  | .ofNat place =>
    match s.source[place]? with
    | some c => .ok c s
    | none => .error (.scan .pastEnd) s
  | .negSucc _ => .error .beforeText s

/-- The text between two places; it ends where the source does. -/
def readBetween (first last : Int) : CursorM (List Char) := fun s =>
  match first, last with
  | .ofNat first, .ofNat last => .ok ((s.source.take last).drop first) s
  | _, _ => .error .beforeText s

/-- The cursor is at the end of the source or past it. -/
def isAtEnd (s : Cursor) : Bool :=
  decide ((s.source.length : Int) ≤ s.current)

/-- The character at the current place, if there is one. -/
def peek : CursorM (Option Char) := do
  if (← get).isAtEnd then
    return none
  return some (← readAt (← get).current)

/-- The character behind the current place, if there is one. -/
def peekNext : CursorM (Option Char) := do
  let s ← get
  if (s.source.length : Int) ≤ s.current + 1 then
    return none
  return some (← readAt (s.current + 1))

/-! ## Single characters -/

/-- The cursor one place on. -/
def step (s : Cursor) : Cursor :=
  { s with current := s.current + 1 }

/-- The cursor one line down. -/
def nextLine (s : Cursor) : Cursor :=
  { s with line := s.line + 1 }

/-- Go one place on and read the character that is passed. -/
def advance : CursorM Char := do
  modify step
  readAt ((← get).current - 1)

/-- Go one place on if the expected character stands there. -/
def accept (expected : Char) : CursorM Bool := do
  if (← peek) = some expected then
    modify step
    return true
  return false

/-! ## Loops -/

/-- Go round until a round has an answer, for as many rounds as are given. -/
def loop {α : Type} (round : CursorM (Option α)) : Nat → CursorM α
  | 0 => throw .endless
  | rounds + 1 => do
    match ← round with
    | some answer => return answer
    | none => loop round rounds

/-- One round for every place that is left, and one at the end. -/
def rounds (s : Cursor) : Nat :=
  ((s.source.length : Int) - s.current).toNat + 1

/-- One round of the way to the next character of the given kind. -/
def skipRound (expected : Char) : CursorM (Option Bool) := do
  if (← get).isAtEnd then
    return some false
  let next ← peek
  if next = some expected then
    return some true
  if next = some '\n' then
    modify nextLine
  discard advance
  return none

/-- Go on to the next character of the given kind and tell whether there is one. -/
def skipTo (expected : Char) : CursorM Bool := do
  loop (skipRound expected) (← get).rounds

/-- One round of the way over characters of a class. -/
def skipWhileRound (isMember : Char → Bool) : CursorM (Option Unit) := do
  if (← peek).any isMember then
    discard advance
    return none
  return some ()

/-- Go on as long as there are characters of a class. -/
def skipWhile (isMember : Char → Bool) : CursorM Unit := do
  loop (skipWhileRound isMember) (← get).rounds

/-! ## Lexemes -/

/-- Add a token for the text from the start of the lexeme to the current place. -/
def addToken (kind : Token.Kind) (literal : Value) : CursorM Unit := do
  let s ← get
  let text ← readBetween s.start s.current
  set { s with tokens := s.tokens.push ⟨kind, String.ofList text, literal, s.line⟩ }

/-- Add a fault. -/
def addFault (line : Nat) (cause : Fault.Cause) : CursorM Unit :=
  modify fun s => { s with faults := s.faults.push ⟨line, cause⟩ }

/-- Scan a string whose opening quote is passed. -/
def string : CursorM Unit := do
  let openingLine := (← get).line
  if ← skipTo '\x22' then
    discard advance
    let s ← get
    let value ← readBetween (s.start + 1) (s.current - 1)
    addToken .string (.string (String.ofList value))
  else
    addFault openingLine .unterminatedString

/-- Go over a point with the digits behind it. -/
def skipFraction : CursorM Unit := do
  if (← peek) = some '.' then
    if (← peekNext).any Lexeme.isDigit then
      discard advance
      skipWhile Lexeme.isDigit

/-- Scan the rest of a word. -/
def identifier : CursorM Unit := do
  skipWhile Lexeme.isWordCharacter
  let s ← get
  let text ← readBetween s.start s.current
  addToken (Lexeme.wordKind text) .nil

section

variable (convert : List Char → Option Binary64)

/-- Scan the rest of a number, and convert its text. -/
def number : CursorM Unit := do
  skipWhile Lexeme.isDigit
  skipFraction
  let s ← get
  let text ← readBetween s.start s.current
  match convert text with
  | some x => addToken .number (.number x)
  | none => throw (.scan (.malformedNumeral (String.ofList text)))

/-- Scan the lexeme that begins with the given character, which is passed. -/
def scanLexeme (c : Char) : CursorM Unit :=
  match Lexeme.mark? c, Lexeme.comparison? c with
  | some kind, _ => addToken kind .nil
  | none, some (alone, withEqual) => do
    addToken (if ← accept '=' then withEqual else alone) .nil
  | none, none =>
    if c = '/' then do
      if ← accept '/' then
        discard (skipTo '\n')
      else
        addToken .slash .nil
    else if c = '\n' then
      modify nextLine
    else if c = ' ' ∨ c = '\r' ∨ c = '\t' then
      pure ()
    else if c = '\x22' then
      string
    else if Lexeme.isDigit c then
      number convert
    else if Lexeme.isLetter c then
      identifier
    else do
      addFault (← get).line .unexpectedCharacter

/-- Go one place on and scan the lexeme that begins there. -/
def scanToken : CursorM Unit := do
  scanLexeme convert (← advance)

/-- Begin a new lexeme at the current place. -/
def mark (s : Cursor) : Cursor :=
  { s with start := s.current }

/-- One round of a run. -/
def scanRound : CursorM (Option Unit) := do
  if (← get).isAtEnd then
    return some ()
  modify mark
  scanToken convert
  return none

/-- Add the token that ends a text. -/
def addEnd (s : Cursor) : Cursor :=
  { s with tokens := s.tokens.push ⟨.endOfText, "", .nil, s.line⟩ }

/-- Scan what is left of the text and add the token that ends it. -/
def scanTokens : CursorM (Array Token) := do
  loop (scanRound convert) (← get).rounds
  modify addEnd
  return (← get).tokens

/-- Perform a call. -/
def perform : Scanner.Call → CursorM Scanner.Answer
  | .isAtEnd => do return .flag (← get).isAtEnd
  | .peek => do return .character (← peek)
  | .peekNext => do return .character (← peekNext)
  | .advance => do return .character (some (← advance))
  | .accept expected => do return .flag (← accept expected)
  | .skipTo expected => do return .flag (← skipTo expected)
  | .string => do string; return .done
  | .number => do number convert; return .done
  | .identifier => do identifier; return .done
  | .scanToken => do scanToken convert; return .done
  | .addToken kind literal => do addToken kind literal; return .done
  | .mark => do modify mark; return .done
  | .scanTokens => do return .tokens (← scanTokens convert)

/-- The cursor after a history of calls. -/
def performAll (s : Cursor) : List Scanner.Call → Cursor
  | [] => s
  | c :: later =>
    match perform convert c s with
    | .ok _ next => next.performAll later
    | .error _ next => next.performAll later

end

/-! ## Steps one after the other -/

section

variable {α β : Type} {s next : Cursor} {first : CursorM α}

/-- A step whose outcome is known hands it to the next one. -/
theorem bind_of_ok {answer : α} (hfirst : first s = .ok answer next) (later : α → CursorM β) :
    (first >>= later) s = later answer next := by
  simp only [bind, EStateM.bind, hfirst]

theorem bind_of_error {failure : Failure} (hfirst : first s = .error failure next)
    (later : α → CursorM β) : (first >>= later) s = .error failure next := by
  simp only [bind, EStateM.bind, hfirst]

theorem discard_of_ok {answer : α} (hfirst : first s = .ok answer next) :
    (discard first : CursorM PUnit) s = .ok ⟨⟩ next := by
  simp only [discard, Functor.mapConst, Function.comp, Function.const, EStateM.map, hfirst]

theorem get_bind (s : Cursor) (later : Cursor → CursorM β) : (get >>= later) s = later s s :=
  rfl

theorem modify_bind (s : Cursor) (change : Cursor → Cursor) (later : PUnit → CursorM β) :
    (modify change >>= later) s = later ⟨⟩ (change s) :=
  rfl

end

end Cursor
end Lox
