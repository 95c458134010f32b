import Lox.Reporter
import Mathlib.Data.List.DropRight

/-!
# Histories of a reporter

A reporter has two memories.  Its errors and its flags go back to the last reset and no
further; what it has written goes back to the beginning.  An operation adds a text to the
errors or none, and writes it as a line.  A verbose reporter writes the traceback of a runtime
error behind its line.

Main results:

- Theorem {lit}`Remembers.act`: what one operation does to the first memory.
- Theorem {lit}`remembers_actAll`: a reporter remembers the operations since the last reset.
- Theorem {lit}`output_actAll`: a reporter has written what every operation writes.
- Theorem {lit}`actAll_invariant`: both memories of a reporter after every history.
-/

namespace Lox
namespace Reporter

/-! ## What an operation reports and writes -/

namespace Action

/-- Whether the operation forgets all errors. -/
def isReset : Action → Bool
  | .reset => true
  | _ => false

/-- Whether the operation reports an error of the source. -/
def isReport : Action → Bool
  | .errorLine .. => true
  | .report .. => true
  | .error .. => true
  | _ => false

/-- Whether the operation reports an error at run time. -/
def isRuntimeError : Action → Bool
  | .runtimeError .. => true
  | _ => false

/-- The text of an error on a line.  The place stands behind a space, if there is one. -/
def onLine (line : Int) (place message : String) : String :=
  "[line " ++ toString line ++ "] Error" ++ place ++ ": " ++ message

/-- The text of the error that an operation reports, if it reports one. -/
def text? : Action → Option String
  | .errorLine line message => some (onLine line "" message)
  | .report line place message =>
    some (onLine line (if place = "" then "" else " " ++ place) message)
  | .error token message =>
    some (onLine token.line
      (if token.kind = .endOfText then " at end" else " at '" ++ token.lexeme ++ "'") message)
  | .runtimeError failure _ =>
    some (failure.message ++ "\n[line " ++ toString failure.token.line ++ "]")
  | .debug .. => none
  | .reset => none

/-- What an operation writes: the text of its error as a line, or the given texts. -/
def written : Action → String
  | .debug texts separator ending => separator.intercalate texts ++ ending
  | a => (a.text?.map (· ++ "\n")).getD ""

/-- What a verbose reporter writes behind that: for a runtime error its last line, and in front
of it the head of a traceback if evaluation has raised the error. -/
def traceback : Action → String
  | .runtimeError failure raised =>
    (if raised then "Traceback (most recent call last):\n" else "") ++ failure.category.name ++
      (if failure.message = "" then "" else ": " ++ failure.message) ++ "\n"
  | _ => ""

/-- An operation reports an error of the source, or one at run time, or none. -/
theorem text?_eq_none_iff (a : Action) :
    a.text? = none ↔ a.isReport = false ∧ a.isRuntimeError = false := by
  cases a <;> simp [text?, isReport, isRuntimeError]

end Action

/-! ## The fields of a reporter after an operation -/

/-- The place in a report is set off by a space, if there is one. -/
theorem reportText_eq (line : Int) (place message : String) :
    reportText line place message =
      Action.onLine line (if place = "" then "" else " " ++ place) message := by
  by_cases hplace : place = ""
  · simp [reportText, Action.onLine, hplace]
  · simp only [reportText, Action.onLine, if_neg hplace, String.append_assoc]

/-- The place of a token in a report is the end, or the lexeme of the token. -/
theorem reportText_place (token : Token) (message : String) :
    reportText token.line (place token) message =
      Action.onLine token.line
        (if token.kind = .endOfText then " at end" else " at '" ++ token.lexeme ++ "'")
        message := by
  have hplace : place token ≠ "" := by
    unfold place
    split <;> simp
  rw [reportText_eq, if_neg hplace, place]
  split
  · rfl
  · simp only [String.append_assoc]
    rfl

/-- The traceback that a reporter writes is that of the operation. -/
theorem traceback_eq (failure : RuntimeError) (raised : Bool) :
    failure.traceback raised = (Action.runtimeError failure raised).traceback := by
  by_cases hmessage : failure.message = ""
  · simp [RuntimeError.traceback, RuntimeError.lastLine, Action.traceback, hmessage,
      String.append_assoc]
  · simp [RuntimeError.traceback, RuntimeError.lastLine, Action.traceback, hmessage,
      String.append_assoc]

/-- A runtime error is collected, and written with its traceback if the reporter is verbose. -/
theorem runtimeError_eq (r : Reporter) (failure : RuntimeError) (raised : Bool) :
    r.runtimeError failure raised =
      { r with
        errors := r.errors.push failure.text
        hadRuntimeError := true
        output := r.output ++ (failure.text ++ "\n") ++
          if r.verbose then (Action.runtimeError failure raised).traceback else "" } := by
  rw [runtimeError, traceback_eq]
  split
  · rfl
  · simp [collect, write]

/-- What an operation does to a reporter.  All reports on a source do the same. -/
inductive Effect (r : Reporter) (a : Action) : Prop where
  | report {text : String} (hreport : a.isReport = true) (hruntime : a.isRuntimeError = false)
      (htext : a.text? = some text) (hwritten : a.written = text ++ "\n")
      (htraceback : a.traceback = "")
      (hact : r.act a = { r.collect text with hadError := true })
  | runtimeError {text : String} (hreport : a.isReport = false)
      (hruntime : a.isRuntimeError = true) (htext : a.text? = some text)
      (hwritten : a.written = text ++ "\n")
      (hact : r.act a =
        ({ r.collect text with hadRuntimeError := true }).write
          (if r.verbose then a.traceback else ""))
  | debug (hreport : a.isReport = false) (hruntime : a.isRuntimeError = false)
      (htext : a.text? = none) (htraceback : a.traceback = "")
      (hact : r.act a = r.write a.written)
  | reset (heq : a = .reset)

/-- Every operation has one of four effects. -/
theorem effect (r : Reporter) (a : Action) : Effect r a := by
  cases a with
  | errorLine line message =>
      refine .report rfl rfl rfl rfl rfl ?_
      rw [act, errorLine, report, reportText_eq]
      rfl
  | report line place message =>
      refine .report rfl rfl rfl rfl rfl ?_
      rw [act, report, reportText_eq]
  | error token message =>
      refine .report rfl rfl rfl rfl rfl ?_
      rw [act, error, report, reportText_place]
  | runtimeError failure raised =>
      refine .runtimeError rfl rfl rfl rfl ?_
      rw [act, runtimeError_eq]
      rfl
  | debug texts separator ending => exact .debug rfl rfl rfl rfl rfl
  | reset => exact .reset rfl

/-- No operation makes a reporter verbose, or silent. -/
@[simp]
theorem verbose_act (r : Reporter) (a : Action) : (r.act a).verbose = r.verbose := by
  cases r.effect a with
  | report _ _ _ _ _ hact => simp [hact, collect, write]
  | runtimeError _ _ _ _ hact => simp [hact, collect, write]
  | debug _ _ _ _ hact => simp [hact, write]
  | reset heq => simp [heq, act, reset]

/-- A reporter writes what the operation writes, and the traceback if it is verbose. -/
theorem output_act (r : Reporter) (a : Action) :
    (r.act a).output = r.output ++ (a.written ++ if r.verbose then a.traceback else "") := by
  cases r.effect a with
  | report _ _ _ hwritten htraceback hact =>
      simp [hact, hwritten, htraceback, collect, write]
  | runtimeError _ _ _ hwritten hact =>
      simp [hact, hwritten, collect, write, String.append_assoc]
  | debug _ _ _ htraceback hact => simp [hact, htraceback, write]
  | reset heq => simp [heq, act, Action.written, Action.text?, Action.traceback]

/-! ## What a reporter remembers -/

/-- The errors and the flags of a reporter are those of the given operations. -/
structure Remembers (r : Reporter) (actions : List Action) : Prop where
  errors_eq : r.errors.toList = actions.filterMap Action.text?
  hadError_eq : r.hadError = actions.any Action.isReport
  hadRuntimeError_eq : r.hadRuntimeError = actions.any Action.isRuntimeError

/-- A fresh reporter remembers nothing. -/
theorem remembers_fresh (verbose : Bool) : Remembers (fresh verbose) [] :=
  ⟨rfl, rfl, rfl⟩

theorem remembers_reset (r : Reporter) : Remembers r.reset [] :=
  ⟨rfl, rfl, rfl⟩

/-- An operation is remembered behind the earlier ones, unless it is a reset. -/
theorem Remembers.act {r : Reporter} {actions : List Action} (hr : Remembers r actions)
    {a : Action} (hreset : a.isReset = false) : Remembers (r.act a) (actions ++ [a]) := by
  cases r.effect a with
  | report hreport hruntime htext _ _ hact =>
      constructor
      · simp [hact, collect, write, hr.errors_eq, htext]
      · simp [hact, hreport]
      · simp [hact, collect, write, hr.hadRuntimeError_eq, hruntime]
  | runtimeError hreport hruntime htext _ hact =>
      constructor
      · simp [hact, collect, write, hr.errors_eq, htext]
      · simp [hact, collect, write, hr.hadError_eq, hreport]
      · simp [hact, write, hruntime]
  | debug hreport hruntime htext _ hact =>
      constructor
      · simp [hact, write, hr.errors_eq, htext]
      · simp [hact, write, hr.hadError_eq, hreport]
      · simp [hact, write, hr.hadRuntimeError_eq, hruntime]
  | reset heq => simp [heq, Action.isReset] at hreset

/-- There are no errors exactly if neither flag is set. -/
theorem Remembers.errors_eq_empty_iff {r : Reporter} {actions : List Action}
    (hr : Remembers r actions) :
    r.errors = #[] ↔ r.hadError = false ∧ r.hadRuntimeError = false := by
  rw [← Array.toList_eq_nil_iff, hr.errors_eq, hr.hadError_eq, hr.hadRuntimeError_eq,
    List.filterMap_eq_nil_iff, List.any_eq_false, List.any_eq_false, ← forall₂_and]
  simp [Action.text?_eq_none_iff]

/-! ## Histories -/

/-- The reporter after a history of operations. -/
def actAll (r : Reporter) (actions : List Action) : Reporter :=
  actions.foldl act r

/-- The operations behind the last reset. -/
def sinceReset (actions : List Action) : List Action :=
  actions.rtakeWhile fun a => !a.isReset

/-- Operations without a reset stand behind the same reset as the earlier ones. -/
theorem sinceReset_append {earlier later : List Action}
    (hlater : ∀ a ∈ later, a.isReset = false) :
    sinceReset (earlier ++ later) = sinceReset earlier ++ later := by
  have hkept : ∀ a ∈ later.reverse, (!a.isReset) = true := by
    intro a ha
    simp [hlater a (List.mem_reverse.1 ha)]
  rw [sinceReset, List.rtakeWhile, List.reverse_append, List.takeWhile_append_of_pos hkept]
  simp [sinceReset, List.rtakeWhile]

theorem actAll_append (r : Reporter) (earlier later : List Action) :
    r.actAll (earlier ++ later) = (r.actAll earlier).actAll later :=
  List.foldl_append

@[simp]
theorem verbose_actAll (r : Reporter) (actions : List Action) :
    (r.actAll actions).verbose = r.verbose := by
  induction actions generalizing r with
  | nil => rfl
  | cons a later ih => exact (ih (r.act a)).trans (r.verbose_act a)

/-- A reporter remembers the operations since the last reset. -/
theorem remembers_actAll (verbose : Bool) (actions : List Action) :
    Remembers ((fresh verbose).actAll actions) (sinceReset actions) := by
  induction actions using List.reverseRecOn with
  | nil => exact remembers_fresh verbose
  | append_singleton earlier a ih =>
      rw [actAll_append, sinceReset, List.rtakeWhile_concat]
      cases hreset : a.isReset with
      | false => exact ih.act hreset
      | true =>
          cases a with
          | reset => exact remembers_reset _
          | _ => cases hreset

/-- A reporter has written what every operation writes, and behind it the traceback if the
reporter is verbose. -/
theorem output_actAll (r : Reporter) (actions : List Action) :
    (r.actAll actions).output = r.output ++
      String.join (actions.map fun a => a.written ++ if r.verbose then a.traceback else "") := by
  induction actions generalizing r with
  | nil => simp [actAll]
  | cons a later ih =>
      have hlater := ih (r.act a)
      rw [output_act, verbose_act] at hlater
      rw [actAll, List.foldl_cons, ← actAll, hlater]
      simp [String.append_assoc]

/-- After every history of operations, a reporter holds the texts of the errors since the last
reset, its flags tell whether there was one of either kind, and it has written the texts of all
operations from the beginning on. -/
theorem actAll_invariant (verbose : Bool) (actions : List Action) :
    ∃ r, r = (fresh verbose).actAll actions ∧
      r.errors.toList = (sinceReset actions).filterMap Action.text? ∧
      (r.hadError = true ↔ ∃ a ∈ sinceReset actions, a.isReport = true) ∧
      (r.hadRuntimeError = true ↔ ∃ a ∈ sinceReset actions, a.isRuntimeError = true) ∧
      (r.errors = #[] ↔ r.hadError = false ∧ r.hadRuntimeError = false) ∧
      ((fresh false).actAll actions).output = String.join (actions.map Action.written) := by
  have hr := remembers_actAll verbose actions
  refine ⟨_, rfl, hr.errors_eq, ?_, ?_, hr.errors_eq_empty_iff, ?_⟩
  · rw [hr.hadError_eq, List.any_eq_true]
  · rw [hr.hadRuntimeError_eq, List.any_eq_true]
  · simp [output_actAll, fresh]

end Reporter
end Lox
