import Lox.Session

/-!
# Parts of trees

What a tree means depends on a part of it only through the outcome of the part.  So parts with
one outcome are interchangeable in every context: groupings may be put in and taken out, and a
part that has a value may be replaced by the literal of the value.  A tree that fails goes on
failing in the same way.

Main results:

- Theorem {lit}`Congruence.of_exchanged`: parts are exchanged within any congruence that allows
  the rule.
- Theorem {lit}`regrouped_iff`: what groupings can be made of a tree.
- Theorem {lit}`exchange_keeps_meaning`: regrouping, folding and every other exchange of parts
  with the same outcome keeps what a tree means.
-/

namespace Lox
namespace Expr

/-! ## Meaning -/

/-- Two trees have the same value or the same failure, hence the same text, and a reporter
takes them alike. -/
structure SameMeaning (e e' : Expr) : Prop where
  evaluate_eq : e.evaluate = e'.evaluate
  interpret_eq : e.interpret = e'.interpret
  report_eq : ∀ r : Reporter, r.interpret e = r.interpret e'

/-- The outcome of evaluation is all that matters. -/
theorem sameMeaning_of_evaluate_eq {e e' : Expr} (heq : e.evaluate = e'.evaluate) :
    SameMeaning e e' := by
  have htext : e.interpret = e'.interpret := by rw [interpret, interpret, heq]
  refine ⟨heq, htext, fun r => ?_⟩
  rw [Reporter.interpret, Reporter.interpret, htext]

/-! ## Contexts -/

/-- A tree with holes in it.  The holes have numbers, and holes of one number take the same
part. -/
inductive Context where
  | hole (number : Nat)
  | literal (value : Value)
  | grouping (inner : Context)
  | unary (operator : Token) (operand : Context)
  | binary (left : Context) (operator : Token) (right : Context)
  | bare (value : BareValue)

namespace Context

/-- The numbers of the holes, from left to right. -/
def holes : Context → List Nat
  | .hole number => [number]
  | .literal _ => []
  | .grouping inner => inner.holes
  | .unary _ operand => operand.holes
  | .binary left _ right => left.holes ++ right.holes
  | .bare _ => []

/-- The tree with parts in the holes. -/
def fill (parts : Nat → Expr) : Context → Expr
  | .hole number => parts number
  | .literal value => .literal value
  | .grouping inner => .grouping (inner.fill parts)
  | .unary operator operand => .unary operator (operand.fill parts)
  | .binary left operator right => .binary (left.fill parts) operator (right.fill parts)
  | .bare value => .bare value

end Context

/-! ## Congruences -/

/-- A relation that passes from the parts of trees to the trees. -/
structure Congruence (related : Expr → Expr → Prop) : Prop where
  refl : ∀ e, related e e
  trans : ∀ {e e' e'' : Expr}, related e e' → related e' e'' → related e e''
  grouping : ∀ {inner inner' : Expr}, related inner inner' →
    related (.grouping inner) (.grouping inner')
  unary : ∀ (operator : Token) {operand operand' : Expr}, related operand operand' →
    related (.unary operator operand) (.unary operator operand')
  binary : ∀ (operator : Token) {left left' right right' : Expr}, related left left' →
    related right right' → related (.binary left operator right) (.binary left' operator right')

/-- Parts of a tree, anywhere in it and any number of times, are exchanged by a rule. -/
inductive Exchanged (rule : Expr → Expr → Prop) : Expr → Expr → Prop where
  | part {e e' : Expr} (hrule : rule e e') : Exchanged rule e e'
  | refl (e : Expr) : Exchanged rule e e
  | trans {e e' e'' : Expr} (hfirst : Exchanged rule e e') (hsecond : Exchanged rule e' e'') :
      Exchanged rule e e''
  | grouping {inner inner' : Expr} (hinner : Exchanged rule inner inner') :
      Exchanged rule (.grouping inner) (.grouping inner')
  | unary (operator : Token) {operand operand' : Expr}
      (hoperand : Exchanged rule operand operand') :
      Exchanged rule (.unary operator operand) (.unary operator operand')
  | binary (operator : Token) {left left' right right' : Expr}
      (hleft : Exchanged rule left left') (hright : Exchanged rule right right') :
      Exchanged rule (.binary left operator right) (.binary left' operator right')

namespace Congruence

variable {related : Expr → Expr → Prop}

/-- Exchanges by a rule stay within a congruence if the rule does. -/
theorem of_exchanged (hcongruence : Congruence related) {rule : Expr → Expr → Prop}
    (hrule : ∀ e e', rule e e' → related e e') {e e' : Expr} (hexchanged : Exchanged rule e e') :
    related e e' := by
  induction hexchanged with
  | part hpart => exact hrule _ _ hpart
  | refl e => exact hcongruence.refl e
  | trans _ _ ihfirst ihsecond => exact hcongruence.trans ihfirst ihsecond
  | grouping _ ih => exact hcongruence.grouping ih
  | unary operator _ ih => exact hcongruence.unary operator ih
  | binary operator _ _ ihleft ihright => exact hcongruence.binary operator ihleft ihright

/-- Related parts give related trees in every context. -/
theorem fill (hcongruence : Congruence related) {c : Context} {parts parts' : Nat → Expr}
    (hparts : ∀ number ∈ c.holes, related (parts number) (parts' number)) :
    related (c.fill parts) (c.fill parts') := by
  induction c with
  | hole number => exact hparts number (List.mem_singleton_self number)
  | literal value => exact hcongruence.refl _
  | grouping inner ih => exact hcongruence.grouping (ih hparts)
  | unary operator operand ih => exact hcongruence.unary operator (ih hparts)
  | binary left operator right ihleft ihright =>
      rw [Context.holes, List.forall_mem_append] at hparts
      exact hcongruence.binary operator (ihleft hparts.1) (ihright hparts.2)
  | bare value => exact hcongruence.refl _

end Congruence

/-- The outcome of a tree is made of the outcomes of its parts. -/
theorem congruence_evaluate_eq : Congruence fun e e' => e.evaluate = e'.evaluate where
  refl e := rfl
  trans hfirst hsecond := hfirst.trans hsecond
  grouping hinner := hinner
  unary operator _ _ hoperand := by simp only [evaluate, hoperand]
  binary operator _ _ _ _ hleft hright := by simp only [evaluate, hleft, hright]

/-! ## Regrouping -/

/-- A grouping is put around a part, or taken away from it. -/
inductive Regrouping : Expr → Expr → Prop where
  | wrap (e : Expr) : Regrouping e (.grouping e)
  | unwrap (e : Expr) : Regrouping (.grouping e) e

/-- The tree without its groupings. -/
def ungrouped : Expr → Expr
  | .literal value => .literal value
  | .grouping inner => inner.ungrouped
  | .unary operator operand => .unary operator operand.ungrouped
  | .binary left operator right => .binary left.ungrouped operator right.ungrouped
  | .bare value => .bare value

/-- To be the same tree but for groupings is kept by all constructions. -/
theorem congruence_ungrouped_eq : Congruence fun e e' => e.ungrouped = e'.ungrouped where
  refl e := rfl
  trans hfirst hsecond := hfirst.trans hsecond
  grouping hinner := hinner
  unary operator _ _ hoperand := by simp only [ungrouped, hoperand]
  binary operator _ _ _ _ hleft hright := by simp only [ungrouped, hleft, hright]

/-- All groupings of a tree can be taken away. -/
theorem exchanged_ungrouped (e : Expr) : Exchanged Regrouping e e.ungrouped := by
  induction e with
  | literal value => exact .refl _
  | grouping inner ih => exact .trans (.part (.unwrap inner)) ih
  | unary operator operand ih => exact .unary operator ih
  | binary left operator right ihleft ihright => exact .binary operator ihleft ihright
  | bare value => exact .refl _

/-- All groupings of a tree can be put back. -/
theorem ungrouped_exchanged (e : Expr) : Exchanged Regrouping e.ungrouped e := by
  induction e with
  | literal value => exact .refl _
  | grouping inner ih => exact .trans ih (.part (.wrap inner))
  | unary operator operand ih => exact .unary operator ih
  | binary left operator right ihleft ihright => exact .binary operator ihleft ihright
  | bare value => exact .refl _

/-- Two trees are regroupings of each other exactly if they differ in groupings only. -/
theorem regrouped_iff (e e' : Expr) :
    Exchanged Regrouping e e' ↔ e.ungrouped = e'.ungrouped := by
  constructor
  · intro hregrouped
    refine congruence_ungrouped_eq.of_exchanged ?_ hregrouped
    intro part part' hrule
    cases hrule with
    | wrap => rfl
    | unwrap => rfl
  · intro heq
    have hback := ungrouped_exchanged e'
    rw [← heq] at hback
    exact (exchanged_ungrouped e).trans hback

/-! ## Folding -/

/-- A part with a value is replaced by the literal of the value. -/
inductive Folding : Expr → Expr → Prop where
  | fold {e : Expr} {value : Value} (hvalue : e.evaluate = .ok value) :
      Folding e (.literal value)

/-! ## Meaning is kept -/

/-- Exchanges of parts for parts with the same outcome keep what a tree means. -/
theorem sameMeaning_of_exchanged {rule : Expr → Expr → Prop}
    (hrule : ∀ e e', rule e e' → e.evaluate = e'.evaluate) {e e' : Expr}
    (hexchanged : Exchanged rule e e') : SameMeaning e e' :=
  sameMeaning_of_evaluate_eq (congruence_evaluate_eq.of_exchanged hrule hexchanged)

/-- What a tree means is kept where its parts are regrouped, which may change all of its
groupings and nothing else, where parts with a value are folded, and where parts are exchanged
for others with the same outcome in any context. -/
theorem exchange_keeps_meaning :
    (∀ e e' : Expr, (Exchanged Regrouping e e' ↔ e.ungrouped = e'.ungrouped) ∧
        (Exchanged Regrouping e e' → SameMeaning e e')) ∧
      (∀ e e' : Expr, Exchanged Folding e e' → SameMeaning e e') ∧
      ∀ (c : Context) (parts parts' : Nat → Expr),
        (∀ number ∈ c.holes, (parts number).evaluate = (parts' number).evaluate) →
          SameMeaning (c.fill parts) (c.fill parts') := by
  refine ⟨fun e e' => ⟨regrouped_iff e e', sameMeaning_of_exchanged ?_⟩,
    fun e e' => sameMeaning_of_exchanged ?_, ?_⟩
  · intro part part' hrule
    cases hrule with
    | wrap => rfl
    | unwrap => rfl
  · intro part part' hrule
    cases hrule with
    | fold hvalue => exact hvalue
  · intro c parts parts' hparts
    exact sameMeaning_of_evaluate_eq (congruence_evaluate_eq.fill hparts)

end Expr
end Lox
