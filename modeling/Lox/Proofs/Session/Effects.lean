import Lox.Proofs.Reporter.History
import Lox.Proofs.Scanner.Reports

/-!
# Effects of a session

A step of a session is a list of operations on its reporter.  A scan reports the faults of its
source, and an interpretation reports the rejection that the evaluation ends with.  An
evaluation and a printing do nothing to the reporter, whether they succeed or not.  So a session
has the errors of its steps since the last reset.

Main results:

- Theorem {lit}`step_eq`: the answer to a step and its operations do not depend on the reporter.
- Theorem {lit}`interpretAgrees`: an interpretation has the outcome of the evaluation.
- Theorem {lit}`sinceReset_flatMap_actions`: a reset of a session is a reset of its reporter.
- Theorem {lit}`run_effects`: the reporter after a session, and what the next step does to it.
-/

namespace Lox

open Reporter (Action)

/-! ## The rejection of an expression -/

namespace Expr

/-- The error at run time that the evaluation of an expression ends with, if an operator rejects
its operands. -/
def rejection? (e : Expr) : Option RuntimeError :=
  match e.evaluate with
  | .error (.rejected operator mismatch) => some ⟨.type, operator, mismatch.message⟩
  | _ => none

/-- The rejection of an expression is that of the operator at which evaluation stops. -/
theorem rejection?_eq_some_iff {e : Expr} {failure : RuntimeError} :
    e.rejection? = some failure ↔ ∃ operator mismatch,
      e.evaluate = .error (.rejected operator mismatch) ∧
        ⟨.type, operator, mismatch.message⟩ = failure := by
  unfold rejection?
  split
  next operator mismatch hvalue => simp [hvalue]
  next hother =>
    constructor
    · intro h
      cases h
    · rintro ⟨operator, mismatch, hvalue, -⟩
      exact (hother operator mismatch hvalue).elim

end Expr

namespace Session

/-! ## The operations of a step -/

namespace Step

/-- Whether the step forgets all errors. -/
def isReset : Step → Bool
  | .reset => true
  | _ => false

/-- The answer to a step. -/
def answer : Step → Answer
  | .scan source => .tokens (Lox.scan source).1
  | .interpret e =>
    match e.evaluate with
    | .ok value => .interpreted (.ok (some value.text))
    | .error (.rejected _ _) => .interpreted (.ok none)
    | .error (.notExpression value) => .interpreted (.error (.notExpression value))
  | .evaluate e => .evaluated e.evaluate
  | .print e => .printed e.print
  | .error _ _ => .done
  | .reset => .done

/-- The operations on the reporter that a step is made of. -/
def actions : Step → List Action
  | .scan source =>
    (Lox.scan source).2.toList.map fun fault => .errorLine fault.line fault.message
  | .interpret e => e.rejection?.toList.map fun failure => .runtimeError failure true
  | .evaluate _ => []
  | .print _ => []
  | .error token message => [.error token message]
  | .reset => [.reset]

/-- The texts of the errors that a step reports. -/
def texts : Step → List String
  | .scan source => (Lox.scan source).2.toList.map Fault.text
  | .interpret e =>
    e.rejection?.toList.map fun failure =>
      failure.message ++ "\n[line " ++ toString failure.token.line ++ "]"
  | .evaluate _ => []
  | .print _ => []
  | .error token message =>
    [Action.onLine token.line
      (if token.kind = .endOfText then " at end" else " at '" ++ token.lexeme ++ "'") message]
  | .reset => []

/-- A fault is reported by its text. -/
theorem text?_errorLine (fault : Fault) :
    Action.text? (.errorLine fault.line fault.message) = some fault.text := by
  simp [Action.text?, Action.onLine, Fault.text, String.append_assoc]

/-- The operations of a step report its texts. -/
theorem filterMap_actions (s : Step) : s.actions.filterMap Action.text? = s.texts := by
  cases s with
  | scan source => simp [actions, texts, List.filterMap_map, text?_errorLine]
  | interpret e => simp [actions, texts, List.filterMap_map, Function.comp_def, Action.text?]
  | evaluate e => rfl
  | print e => rfl
  | error token message => rfl
  | reset => rfl

/-- Only a reset has a reset among its operations. -/
theorem isReset_of_mem_actions {s : Step} {a : Action} (hs : s.isReset = false)
    (ha : a ∈ s.actions) : a.isReset = false := by
  cases s with
  | scan source =>
      rcases List.mem_map.1 ha with ⟨fault, -, rfl⟩
      rfl
  | interpret e =>
      rcases List.mem_map.1 ha with ⟨failure, -, rfl⟩
      rfl
  | evaluate e => cases ha
  | print e => cases ha
  | error token message =>
      rw [List.mem_singleton.1 ha]
      rfl
  | reset => cases hs

/-- A step reports an error of the source if it scans a source with a fault, or is given an
error. -/
theorem any_isReport_actions (s : Step) :
    s.actions.any Action.isReport = true ↔
      (∃ source, s = .scan source ∧ (Lox.scan source).2 ≠ #[]) ∨
        ∃ token message, s = .error token message := by
  cases s with
  | scan source =>
      have hsize : (∃ i, i < (Lox.scan source).2.size) ↔ 0 < (Lox.scan source).2.size :=
        ⟨fun ⟨_, hi⟩ => Nat.zero_lt_of_lt hi, fun hpos => ⟨0, hpos⟩⟩
      simpa [actions, Action.isReport, Array.size_pos_iff] using hsize
  | interpret e => simp [actions, Action.isReport]
  | evaluate e => simp [actions]
  | print e => simp [actions]
  | error token message => simp [actions, Action.isReport]
  | reset => simp [actions, Action.isReport]

/-- A step reports an error at run time if it interprets an expression with a rejection. -/
theorem any_isRuntimeError_actions (s : Step) :
    s.actions.any Action.isRuntimeError = true ↔
      ∃ e operator mismatch, s = .interpret e ∧
        e.evaluate = .error (.rejected operator mismatch) := by
  cases s with
  | interpret e =>
      simp [actions, Action.isRuntimeError, Expr.rejection?_eq_some_iff]
  | scan source => simp [actions, Action.isRuntimeError]
  | evaluate e => simp [actions]
  | print e => simp [actions]
  | error token message => simp [actions, Action.isRuntimeError]
  | reset => simp [actions, Action.isRuntimeError]

end Step

/-- The answer to a step and its operations do not depend on the reporter. -/
theorem step_eq (r : Reporter) (s : Step) : step r s = (s.answer, r.actAll s.actions) := by
  cases s with
  | scan source =>
      simp [step, Step.answer, Step.actions, Reporter.scan_eq_reportFaults,
        Reporter.reportFaults, Reporter.actAll, List.foldl_map, Reporter.act]
  | interpret e =>
      rw [step, Reporter.interpret, Expr.interpret, Step.answer, Step.actions, Expr.rejection?]
      cases e.evaluate with
      | ok value => rfl
      | error failure =>
          cases failure with
          | rejected operator mismatch => rfl
          | notExpression value => rfl
  | evaluate e => rfl
  | print e => rfl
  | error token message => rfl
  | reset => rfl

/-- A session is the history of the operations of its steps. -/
theorem run_eq_actAll (r : Reporter) (steps : List Step) :
    run r steps = r.actAll (steps.flatMap Step.actions) := by
  induction steps generalizing r with
  | nil => rfl
  | cons s later ih =>
      rw [run, List.foldl_cons, ← run, ih, step_eq, ← Reporter.actAll_append]
      rfl

/-! ## Resets -/

/-- The steps behind the last reset. -/
def sinceReset (steps : List Step) : List Step :=
  steps.rtakeWhile fun s => !s.isReset

/-- A reset of a session is a reset of its reporter. -/
theorem sinceReset_flatMap_actions (steps : List Step) :
    Reporter.sinceReset (steps.flatMap Step.actions) =
      (sinceReset steps).flatMap Step.actions := by
  induction steps using List.reverseRecOn with
  | nil => rfl
  | append_singleton earlier s ih =>
      rw [List.flatMap_append, List.flatMap_singleton, sinceReset, List.rtakeWhile_concat]
      cases hreset : s.isReset with
      | false =>
          rw [Reporter.sinceReset_append fun a => Step.isReset_of_mem_actions hreset, ih]
          simp [sinceReset]
      | true =>
          -- Nothing is behind a reset, in the session or in its history.
          cases s with
          | reset => simp [Step.actions, Reporter.sinceReset, Action.isReset]
          | _ => cases hreset

/-! ## Interpretation and evaluation -/

section Interpret

variable (r : Reporter) {e : Expr}

/-- An expression with a value is answered by its text. -/
theorem step_interpret_of_value {value : Value} (hvalue : e.evaluate = .ok value) :
    step r (.interpret e) = (.interpreted (.ok (some value.text)), r) := by
  rw [step_eq, Step.answer, Step.actions, Expr.rejection?, hvalue]
  rfl

/-- A rejection is reported, and is answered by no text. -/
theorem step_interpret_of_rejected {operator : Token} {mismatch : Mismatch}
    (hvalue : e.evaluate = .error (.rejected operator mismatch)) :
    step r (.interpret e) = (.interpreted (.ok none),
      r.runtimeError ⟨.type, operator, mismatch.message⟩ true) := by
  rw [step_eq, Step.answer, Step.actions, Expr.rejection?, hvalue]
  rfl

/-- A bare value is a failure that is not reported. -/
theorem step_interpret_of_notExpression {value : BareValue}
    (hvalue : e.evaluate = .error (.notExpression value)) :
    step r (.interpret e) = (.interpreted (.error (.notExpression value)), r) := by
  rw [step_eq, Step.answer, Step.actions, Expr.rejection?, hvalue]
  rfl

end Interpret

/-- An interpretation under a reporter and the evaluation of the expression have the same
outcome.  A rejection is reported, and every other outcome leaves the reporter as it was. -/
structure InterpretAgrees (r : Reporter) (e : Expr) : Prop where
  text_iff (text : String) (next : Reporter) :
    step r (.interpret e) = (.interpreted (.ok (some text)), next) ↔
      (∃ value, e.evaluate = .ok value ∧ value.text = text) ∧ r = next
  reported_iff (next : Reporter) :
    step r (.interpret e) = (.interpreted (.ok none), next) ↔
      ∃ operator mismatch text, e.evaluate = .error (.rejected operator mismatch) ∧
        text = mismatch.message ++ "\n[line " ++ toString operator.line ++ "]" ∧
        next = { r with
          errors := r.errors.push text
          hadRuntimeError := true
          output := r.output ++ (text ++ "\n") ++
            if r.verbose then
              (Action.runtimeError ⟨.type, operator, mismatch.message⟩ true).traceback
            else "" }
  passed_iff (value : BareValue) (next : Reporter) :
    step r (.interpret e) = (.interpreted (.error (.notExpression value)), next) ↔
      e.evaluate = .error (.notExpression value) ∧ r = next

/-- An interpretation has the outcome of the evaluation. -/
theorem interpretAgrees (r : Reporter) (e : Expr) : InterpretAgrees r e := by
  cases hvalue : e.evaluate with
  | ok value =>
      have hstep := step_interpret_of_value r hvalue
      constructor
      · simp [hstep, hvalue]
      · simp [hstep, hvalue]
      · simp [hstep, hvalue]
  | error failure =>
      cases failure with
      | rejected operator mismatch =>
          have hstep := step_interpret_of_rejected r hvalue
          constructor
          · simp [hstep, hvalue]
          · intro next
            rw [hstep, Reporter.runtimeError_eq]
            constructor
            · intro h
              obtain ⟨-, rfl⟩ := Prod.mk.inj h
              exact ⟨operator, mismatch, _, hvalue, rfl, rfl⟩
            · rintro ⟨_, _, _, herror, rfl, rfl⟩
              rw [hvalue] at herror
              cases herror
              rfl
          · simp [hstep, hvalue]
      | notExpression value =>
          have hstep := step_interpret_of_notExpression r hvalue
          constructor
          · simp [hstep, hvalue]
          · simp [hstep, hvalue]
          · simp [hstep, hvalue]

/-- Without a reporter, an interpretation fails as the evaluation does. -/
theorem interpret_eq_error_iff {e : Expr} {failure : EvalError} :
    e.interpret = .error failure ↔ e.evaluate = .error failure := by
  rw [Expr.interpret]
  cases e.evaluate with
  | ok value => simp [Except.map]
  | error other => simp [Except.map]

/-! ## The effect of a step -/

/-- What a step of every kind answers and does to a reporter. -/
structure StepEffects (r : Reporter) : Prop where
  interpret (e : Expr) : InterpretAgrees r e
  evaluate (e : Expr) : step r (.evaluate e) = (.evaluated e.evaluate, r)
  print (e : Expr) : step r (.print e) = (.printed e.print, r)
  scan (source : String) : ∃ texts, (Step.scan source).texts = texts ∧
    step r (.scan source) = (.tokens (Lox.scan source).1,
      { r with
        errors := r.errors ++ texts.toArray
        hadError := r.hadError || !texts.isEmpty
        output := r.output ++ String.join (texts.map fun text => text ++ "\n") })
  error (token : Token) (message : String) : ∃ text,
    (Step.error token message).texts = [text] ∧
      step r (.error token message) = (.done,
        { r with
          errors := r.errors.push text
          hadError := true
          output := r.output ++ (text ++ "\n") })
  reset : step r .reset = (.done,
    { r with errors := #[], hadError := false, hadRuntimeError := false })

/-- What every step does to a reporter. -/
theorem stepEffects (r : Reporter) : StepEffects r where
  interpret := interpretAgrees r
  evaluate _ := rfl
  print _ := rfl
  scan source := by
    have hfaults := r.reportFaults_eq (Lox.scan source).2.toList
    rw [Array.toArray_toList] at hfaults
    refine ⟨_, rfl, ?_⟩
    rw [step, Reporter.scan_eq_reportFaults, hfaults]
    rfl
  error token message := by
    refine ⟨_, rfl, ?_⟩
    rw [step, Reporter.error, Reporter.report, Reporter.reportText_place]
    rfl
  reset := rfl

/-! ## Sessions -/

/-- A session has the errors of its steps since the last reset, in order.  There was an error in
a source if one of these steps scanned a source with a fault or was given an error, and one at
run time if one of them interpreted an expression whose evaluation ends with a rejection.  The
next step has the effect of its kind, whatever the earlier ones were. -/
theorem run_effects (verbose : Bool) (earlier : List Step) :
    ∃ r, r = run (.fresh verbose) earlier ∧
      r.errors.toList = (sinceReset earlier).flatMap Step.texts ∧
      (r.hadError = true ↔
        (∃ source, .scan source ∈ sinceReset earlier ∧ (Lox.scan source).2 ≠ #[]) ∨
          ∃ token message, .error token message ∈ sinceReset earlier) ∧
      (r.hadRuntimeError = true ↔
        ∃ e operator mismatch, .interpret e ∈ sinceReset earlier ∧
          e.evaluate = .error (.rejected operator mismatch)) ∧
      StepEffects r ∧
      ∀ (e : Expr) (failure : EvalError),
        e.interpret = .error failure ↔ e.evaluate = .error failure := by
  have hr := Reporter.remembers_actAll verbose (earlier.flatMap Step.actions)
  rw [← run_eq_actAll, sinceReset_flatMap_actions] at hr
  refine ⟨_, rfl, ?_, ?_, ?_, stepEffects _, fun e failure => interpret_eq_error_iff⟩
  · rw [hr.errors_eq, List.filterMap_flatMap]
    simp only [Step.filterMap_actions]
  · rw [hr.hadError_eq, List.any_flatMap, List.any_eq_true]
    simp only [Step.any_isReport_actions]
    aesop
  · rw [hr.hadRuntimeError_eq, List.any_flatMap, List.any_eq_true]
    simp only [Step.any_isRuntimeError_actions]
    aesop

/-- A reset forgets the open string, and the evaluation that fails on line 2 is not reported. -/
example :
    (run (.fresh false)
      [.scan "\"", .reset, .scan "@",
        .evaluate (.unary ⟨.minus, "-", .nil, 2⟩ (.literal .nil)),
        .interpret (.unary ⟨.minus, "-", .nil, 3⟩ (.literal .nil))]).errors =
      #["[line 1] Error: Unexpected character.", "Operand must be a number.\n[line 3]"] := by
  decide +kernel

end Session
end Lox
