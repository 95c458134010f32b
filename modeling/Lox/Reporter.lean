import Lox.Token.Basic

/-!
# Reports

A reporter collects the texts of errors, writes each one as it arrives, and
remembers whether there was an error in the source and whether there was one at
run time.  A verbose reporter also writes the traceback of every runtime error.  A
reset forgets all errors and keeps what has been written.

Main results:

- Theorem {lit}`errors_report`: a report is collected behind the earlier ones.
- Theorem {lit}`output_reset`: a reset keeps what has been written.
-/

namespace Lox

/-! ## Runtime errors -/

/-- The sorts of errors at run time. -/
inductive RuntimeError.Category where
  | general
  | type
deriving DecidableEq

/-- The name of a sort in a traceback. -/
def RuntimeError.Category.name : RuntimeError.Category → String
  | .general => "loxfront.interpreter.LoxRuntimeError"
  | .type => "loxfront.interpreter.LoxTypeError"

/-- An error at run time, with the operator that it arose from. -/
structure RuntimeError where
  category : RuntimeError.Category
  token : Token
  message : String
deriving DecidableEq

namespace RuntimeError

/-- The text of a runtime error: its message and its line. -/
def text (error : RuntimeError) : String :=
  error.message ++ "\n[line " ++ toString error.token.line ++ "]"

/-- The last line of a traceback.  An empty message is left out with its colon. -/
def lastLine (error : RuntimeError) : String :=
  if error.message = "" then
    error.category.name ++ "\n"
  else
    error.category.name ++ ": " ++ error.message ++ "\n"

/-- The traceback of an error.  It has a head if evaluation has raised the
error. -/
def traceback (error : RuntimeError) (raised : Bool) : String :=
  (if raised then "Traceback (most recent call last):\n" else "") ++ error.lastLine

end RuntimeError

/-! ## Reporters -/

/-- The collected errors and everything written so far. -/
structure Reporter where
  verbose : Bool
  errors : Array String
  hadError : Bool
  hadRuntimeError : Bool
  output : String
deriving DecidableEq

namespace Reporter

/-- A reporter with nothing to report. -/
def fresh (verbose : Bool) : Reporter where
  verbose := verbose
  errors := #[]
  hadError := false
  hadRuntimeError := false
  output := ""

/-- Write a text. -/
def write (r : Reporter) (text : String) : Reporter :=
  { r with output := r.output ++ text }

/-- Collect the text of an error and write it as a line. -/
def collect (r : Reporter) (text : String) : Reporter :=
  { r with errors := r.errors.push text }.write (text ++ "\n")

/-! ## Reports on a source -/

/-- A line that is counted from one is written as the natural number that it is. -/
@[simp]
theorem repr_line (line : Nat) : (line : Int).repr = line.repr :=
  rfl

/-- The text of a report on a line, which a caller may count from anywhere.  A place
that is not empty is set off by a space. -/
def reportText (line : Int) (place message : String) : String :=
  let gap := if place = "" then "" else " "
  "[line " ++ toString line ++ "] Error" ++ gap ++ place ++ ": " ++ message

/-- Report an error at a place of a line. -/
def report (r : Reporter) (line : Int) (place message : String) : Reporter :=
  { r.collect (reportText line place message) with hadError := true }

/-- Report an error of a line. -/
def errorLine (r : Reporter) (line : Int) (message : String) : Reporter :=
  r.report line "" message

/-- The place of a token in a report. -/
def place (token : Token) : String :=
  if token.kind = .endOfText then "at end" else "at '" ++ token.lexeme ++ "'"

/-- Report an error at a token. -/
def error (r : Reporter) (token : Token) (message : String) : Reporter :=
  r.report token.line (place token) message

/-- A report is collected behind the earlier ones. -/
@[simp]
theorem errors_report (r : Reporter) (line : Int) (place message : String) :
    (r.report line place message).errors =
      r.errors.push (reportText line place message) :=
  rfl

/-! ## Other reports -/

/-- Report an error at run time, with its traceback if the reporter is verbose. -/
def runtimeError (r : Reporter) (error : RuntimeError) (raised : Bool) : Reporter :=
  let collected := { r.collect error.text with hadRuntimeError := true }
  if r.verbose then collected.write (error.traceback raised) else collected

/-- Write texts with a separator between them and an ending behind them. -/
def debug (r : Reporter) (texts : List String) (separator ending : String) : Reporter :=
  r.write (separator.intercalate texts ++ ending)

/-- Forget all errors. -/
def reset (r : Reporter) : Reporter :=
  { r with errors := #[], hadError := false, hadRuntimeError := false }

/-- A reset keeps what has been written. -/
@[simp]
theorem output_reset (r : Reporter) : r.reset.output = r.output :=
  rfl

/-! ## Histories -/

/-- An operation on a reporter. -/
inductive Action where
  | errorLine (line : Int) (message : String)
  | report (line : Int) (place message : String)
  | error (token : Token) (message : String)
  | runtimeError (error : RuntimeError) (raised : Bool)
  | debug (texts : List String) (separator ending : String)
  | reset

/-- The reporter after an operation. -/
def act (r : Reporter) : Action → Reporter
  | .errorLine line message => r.errorLine line message
  | .report line place message => r.report line place message
  | .error token message => r.error token message
  | .runtimeError error raised => r.runtimeError error raised
  | .debug texts separator ending => r.debug texts separator ending
  | .reset => r.reset

end Reporter
end Lox
