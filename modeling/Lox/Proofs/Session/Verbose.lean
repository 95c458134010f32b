import Lox.Proofs.Session.Effects

/-!
# Verbose sessions

A verbose reporter and a plain one that go through the same history have the same errors and the
same flags.  They differ in what they have written: behind the line of every runtime error, the
verbose one has its traceback.  The answers to the steps of a session do not depend on the
reporter, so they are the same for both.

Main results:

- Theorem {lit}`alike_actAll`: the errors and the flags after a history of operations.
- Theorem {lit}`output_run`: what a session writes, plain and verbose.
- Theorem {lit}`verbose_adds_tracebacks`: a verbose history and a plain one, operation by
  operation and step by step.
-/

namespace Lox
namespace Reporter

/-! ## Operations -/

/-- The reporters have the same errors and flags. -/
structure Alike (r other : Reporter) : Prop where
  errors_eq : r.errors = other.errors
  hadError_eq : r.hadError = other.hadError
  hadRuntimeError_eq : r.hadRuntimeError = other.hadRuntimeError

/-- Reporters that remember the same operations are alike. -/
theorem Remembers.alike {r other : Reporter} {actions : List Action} (hr : Remembers r actions)
    (hother : Remembers other actions) : Alike r other where
  errors_eq := Array.toList_inj.1 (hr.errors_eq.trans hother.errors_eq.symm)
  hadError_eq := hr.hadError_eq.trans hother.hadError_eq.symm
  hadRuntimeError_eq := hr.hadRuntimeError_eq.trans hother.hadRuntimeError_eq.symm

/-- A verbose reporter has the errors and the flags of a plain one. -/
theorem alike_actAll (actions : List Action) :
    Alike ((fresh true).actAll actions) ((fresh false).actAll actions) :=
  (remembers_actAll true actions).alike (remembers_actAll false actions)

end Reporter

namespace Session

open Reporter (Action Alike)

/-! ## What a step writes -/

namespace Step

/-- What a step writes: each of its texts as a line. -/
def written (s : Step) : String :=
  String.join (s.texts.map fun text => text ++ "\n")

/-- What a verbose reporter writes behind that: the traceback of the rejection that an
interpretation ends with. -/
def traceback : Step → String
  | .interpret e =>
    match e.rejection? with
    | some failure =>
      "Traceback (most recent call last):\nloxfront.interpreter.LoxTypeError: " ++
        failure.message ++ "\n"
    | none => ""
  | _ => ""

end Step

theorem message_ne_empty (mismatch : Mismatch) : mismatch.message ≠ "" := by
  cases mismatch <;> simp [Mismatch.message]

/-- The traceback of a rejection names the error and its message. -/
theorem traceback_of_rejection {e : Expr} {failure : RuntimeError}
    (hfailure : e.rejection? = some failure) :
    (Action.runtimeError failure true).traceback = (Step.interpret e).traceback := by
  rw [Step.traceback, hfailure]
  rcases Expr.rejection?_eq_some_iff.1 hfailure with ⟨operator, mismatch, -, rfl⟩
  simp only [Action.traceback, RuntimeError.Category.name, message_ne_empty, if_true, if_false,
    ← String.append_assoc]
  rfl

/-- A step writes its texts as lines, and behind them the traceback if the reporter is verbose. -/
theorem output_step (r : Reporter) (s : Step) :
    (step r s).2.output = r.output ++ (s.written ++ if r.verbose then s.traceback else "") := by
  rw [step_eq, Reporter.output_actAll]
  cases s with
  | scan source =>
      simp [Step.actions, Step.written, Step.texts, Step.traceback, Action.written,
        Action.traceback, Step.text?_errorLine, Function.comp_def]
  | interpret e =>
      cases hfailure : e.rejection? with
      | some failure =>
          simp [Step.actions, Step.written, Step.texts, Action.written, Action.text?, hfailure,
            traceback_of_rejection hfailure]
      | none => simp [Step.actions, Step.written, Step.texts, Step.traceback, hfailure]
  | evaluate e => simp [Step.actions, Step.written, Step.texts, Step.traceback]
  | print e => simp [Step.actions, Step.written, Step.texts, Step.traceback]
  | error token message =>
      simp [Step.actions, Step.written, Step.texts, Step.traceback, Action.written,
        Action.traceback, Action.text?]
  | reset =>
      simp [Step.actions, Step.written, Step.texts, Step.traceback, Action.written,
        Action.traceback, Action.text?]

/-- No step makes a reporter verbose, or silent. -/
@[simp]
theorem verbose_step (r : Reporter) (s : Step) : (step r s).2.verbose = r.verbose := by
  rw [step_eq, Reporter.verbose_actAll]

/-! ## Sessions -/

/-- A session writes the lines of its steps in order, and behind those of each step its
traceback if the reporter is verbose. -/
theorem output_run (r : Reporter) (steps : List Step) :
    (run r steps).output = r.output ++
      String.join (steps.map fun s => s.written ++ if r.verbose then s.traceback else "") := by
  induction steps generalizing r with
  | nil => simp [run]
  | cons s later ih =>
      have hlater := ih (step r s).2
      rw [output_step, verbose_step] at hlater
      rw [run, List.foldl_cons, ← run, hlater]
      simp [String.append_assoc]

/-- A verbose reporter and a silent one remember the same errors of a session. -/
theorem alike_run (steps : List Step) :
    Alike (run (.fresh true) steps) (run (.fresh false) steps) := by
  rw [run_eq_actAll, run_eq_actAll]
  exact Reporter.alike_actAll _

/-- A verbose history has the errors and the flags of a plain one at every point, and the steps
of a session have the same answers.  The plain reporter writes the lines of every operation, and
the verbose one writes the same lines with the traceback of every runtime error behind the line
of that error. -/
theorem verbose_adds_tracebacks :
    (∀ actions : List Action, ∃ plain full,
      plain = (Reporter.fresh false).actAll actions ∧
      full = (Reporter.fresh true).actAll actions ∧
      Alike full plain ∧
      plain.output = String.join (actions.map Action.written) ∧
      full.output = String.join (actions.map fun a => a.written ++ a.traceback)) ∧
    ∀ earlier : List Step, ∃ plain full,
      plain = run (.fresh false) earlier ∧
      full = run (.fresh true) earlier ∧
      Alike full plain ∧
      plain.output = String.join (earlier.map Step.written) ∧
      full.output = String.join (earlier.map fun s => s.written ++ s.traceback) ∧
      ∀ s, (step full s).1 = (step plain s).1 := by
  constructor
  · intro actions
    refine ⟨_, _, rfl, rfl, Reporter.alike_actAll actions, ?_, ?_⟩
    · simp [Reporter.output_actAll, Reporter.fresh]
    · simp [Reporter.output_actAll, Reporter.fresh]
  · intro earlier
    refine ⟨_, _, rfl, rfl, alike_run earlier, ?_, ?_, ?_⟩
    · simp [output_run, Reporter.fresh]
    · simp [output_run, Reporter.fresh]
    · intro s
      rw [step_eq, step_eq]

/-- The traceback stands behind the line of its error, and a fault of a source has none. -/
example :
    (run (.fresh true)
      [.interpret (.unary ⟨.minus, "-", .nil, 1⟩ (.literal .nil)), .scan "@"]).output =
      "Operand must be a number.\n[line 1]\n" ++
        "Traceback (most recent call last):\n" ++
        "loxfront.interpreter.LoxTypeError: Operand must be a number.\n" ++
        "[line 1] Error: Unexpected character.\n" := by
  decide +kernel

end Session
end Lox
