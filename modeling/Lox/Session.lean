import Lox.Expr.Eval
import Lox.Expr.Print
import Lox.Reporter
import Lox.Scanner.Run

/-!
# Sessions

A session scans sources and interprets, evaluates and prints expressions under one
reporter.  It is a list of steps, and the reporter is all that one step leaves to
the next.

Main results:

- Theorem {lit}`Reporter.interpret_of_ok`: an expression that has a value leaves the
  reporter as it was.
- Theorem {lit}`Session.run_append`: a session goes on where an earlier one ended.
-/

namespace Lox

/-! ## Scanning and interpreting under a reporter -/

namespace Reporter

/-- Report faults of a source. -/
def reportFaults (r : Reporter) (faults : Array Fault) : Reporter :=
  faults.foldl (fun r fault => r.errorLine fault.line fault.message) r

/-- The tokens of a source; its faults are reported. -/
def scan (r : Reporter) (source : String) : Array Token × Reporter :=
  let (tokens, faults) := Lox.scan source
  (tokens, r.reportFaults faults)

/-- The text of the value of an expression.  A mismatch is reported and leaves no
text; a value that stands for an expression is a failure of its own. -/
def interpret (r : Reporter) (e : Expr) : Except EvalError (Option String) × Reporter :=
  match e.interpret with
  | .ok text => (.ok (some text), r)
  | .error (.rejected operator mismatch) =>
    (.ok none, r.runtimeError ⟨.type, operator, mismatch.message⟩ true)
  | .error (.notExpression value) => (.error (.notExpression value), r)

/-- An expression that has a value leaves the reporter as it was. -/
theorem interpret_of_ok (r : Reporter) {e : Expr} {text : String}
    (hvalue : e.interpret = .ok text) : r.interpret e = (.ok (some text), r) := by
  rw [interpret, hvalue]

end Reporter

/-! ## Steps -/

namespace Session

/-- A step of a session. -/
inductive Step where
  | scan (source : String)
  | interpret (expression : Expr)
  | evaluate (expression : Expr)
  | print (expression : Expr)
  | error (token : Token) (message : String)
  | reset

/-- What a step answers. -/
inductive Answer where
  | done
  | tokens (value : Array Token)
  | interpreted (outcome : Except EvalError (Option String))
  | evaluated (outcome : Except EvalError Value)
  | printed (outcome : Except PrintError String)

/-- The answer to a step, and the reporter after it. -/
def step (r : Reporter) : Step → Answer × Reporter
  | .scan source =>
    let (tokens, next) := r.scan source
    (.tokens tokens, next)
  | .interpret expression =>
    let (outcome, next) := r.interpret expression
    (.interpreted outcome, next)
  | .evaluate expression => (.evaluated expression.evaluate, r)
  | .print expression => (.printed expression.print, r)
  | .error token message => (.done, r.error token message)
  | .reset => (.done, r.reset)

/-- The reporter after a list of steps. -/
def run (r : Reporter) (steps : List Step) : Reporter :=
  steps.foldl (fun r s => (step r s).2) r

/-- A session goes on where an earlier one ended. -/
theorem run_append (r : Reporter) (earlier later : List Step) :
    run r (earlier ++ later) = run (run r earlier) later := by
  simp [run]

end Session
end Lox
