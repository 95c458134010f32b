import Lox.Expr.Eval

/-!
# Rules of operators

What an operator makes of its operands is a matter of their sorts: the sort of the
result, or the reason to reject them.  Equality takes any two sorts, a sum takes two
numbers or two strings, the other operators of two operands take numbers, and all that
is not allowed by a rule is rejected.

Main results:

- Theorem {lit}`applyUnary_by_rule`, {lit}`applyBinary_by_rule`: an operator follows its
  rules.
- Theorems {lit}`UnaryRule.not_rejects`, {lit}`BinaryRule.not_rejects`: no operator has a
  result and a rejection for the same sorts.
-/

namespace Lox

/-! ## Sorts and reasons -/

/-- The sort of a value. -/
inductive Value.Tag where
  | nil
  | boolean
  | number
  | string
deriving DecidableEq

/-- The sort of a value. -/
def Value.tag : Value → Value.Tag
  | .nil => .nil
  | .boolean _ => .boolean
  | .number _ => .number
  | .string _ => .string

theorem Value.tag_eq_number {v : Value} (htag : v.tag = .number) : ∃ x, v = .number x := by
  cases v with
  | number x => exact ⟨x, rfl⟩
  | _ => cases htag

theorem Value.tag_eq_string {v : Value} (htag : v.tag = .string) : ∃ s, v = .string s := by
  cases v with
  | string s => exact ⟨s, rfl⟩
  | _ => cases htag

/-- A mismatch is known by its text. -/
theorem Mismatch.message_injective {mismatch mismatch' : Mismatch}
    (htext : mismatch.message = mismatch'.message) : mismatch = mismatch' := by
  cases mismatch <;> cases mismatch' <;> simp_all [message]

namespace Token.Kind

open Value (Tag)

/-! ## Rules -/

/-- The sort that a unary operator makes of the sort of its operand. -/
inductive UnaryRule : Kind → Tag → Tag → Prop where
  | negation : UnaryRule .minus .number .number
  | inversion {operand : Tag} : UnaryRule .bang operand .boolean

/-- The sort that a binary operator makes of the sorts of its operands. -/
inductive BinaryRule : Kind → Tag → Tag → Tag → Prop where
  | equality {kind : Kind} {left right : Tag} (hkind : kind ∈ [equalEqual, bangEqual]) :
      BinaryRule kind left right .boolean
  | sum : BinaryRule .plus .number .number .number
  | concatenation : BinaryRule .plus .string .string .string
  | arithmetic {kind : Kind} (hkind : kind ∈ [minus, slash, star]) :
      BinaryRule kind .number .number .number
  | comparison {kind : Kind} (hkind : kind ∈ [greater, greaterEqual, less, lessEqual]) :
      BinaryRule kind .number .number .boolean

/-- The ten binary operators. -/
def binaryOperators : List Kind :=
  [plus, minus, slash, star, greater, greaterEqual, less, lessEqual, equalEqual, bangEqual]

/-- A unary operator rejects operands of a sort, with the given text. -/
inductive RejectsUnary : Kind → Tag → String → Prop where
  | operand {operand : Tag} (htag : operand ≠ .number) :
      RejectsUnary .minus operand "Operand must be a number."
  | unknown {kind : Kind} {operand : Tag} (hkind : kind ∉ [minus, bang]) :
      RejectsUnary kind operand "Unexpected unary operation."

/-- A binary operator rejects operands of two sorts, with the given text. -/
inductive RejectsBinary : Kind → Tag → Tag → String → Prop where
  | sum {left right : Tag} (hnumbers : ¬(left = .number ∧ right = .number))
      (hstrings : ¬(left = .string ∧ right = .string)) :
      RejectsBinary .plus left right "Operands must be two numbers or two strings."
  | operands {kind : Kind} {left right : Tag} (hkind : kind ∉ [plus, equalEqual, bangEqual])
      (hnumbers : ¬(left = .number ∧ right = .number)) :
      RejectsBinary kind left right "Operands must be numbers."
  | unknown {kind : Kind} (hkind : kind ∉ binaryOperators) :
      RejectsBinary kind .number .number "Unexpected binary operation."

/-! ## Operators follow the rules -/

/-- A unary operator has a result by a rule, or rejects its operand. -/
theorem applyUnary_by_rule (kind : Kind) (v : Value) :
    (∃ w, kind.applyUnary v = .ok w ∧ UnaryRule kind v.tag w.tag) ∨
      ∃ mismatch, kind.applyUnary v = .error mismatch ∧
        RejectsUnary kind v.tag mismatch.message := by
  cases kind with
  | minus =>
      cases v with
      | number x => exact Or.inl ⟨.number (-x), rfl, .negation⟩
      | _ => exact Or.inr ⟨.operandNotNumber, rfl, .operand nofun⟩
  | bang => exact Or.inl ⟨.boolean !v.truthy, rfl, .inversion⟩
  | _ => exact Or.inr ⟨.unknownUnary, rfl, .unknown (by simp)⟩

/-- An operator on two numbers has a result by a rule, or is unknown. -/
theorem onNumbers?_by_rule {kind : Kind} (hkind : kind ∉ [equalEqual, bangEqual])
    (x y : Binary64) :
    (∃ w, kind.onNumbers? x y = some w ∧ BinaryRule kind .number .number w.tag) ∨
      (kind.onNumbers? x y = none ∧ kind ∉ binaryOperators) := by
  cases kind with
  | plus => exact Or.inl ⟨_, rfl, .sum⟩
  | minus => exact Or.inl ⟨_, rfl, .arithmetic (by simp)⟩
  | slash => exact Or.inl ⟨_, rfl, .arithmetic (by simp)⟩
  | star => exact Or.inl ⟨_, rfl, .arithmetic (by simp)⟩
  | greater => exact Or.inl ⟨_, rfl, .comparison (by simp)⟩
  | greaterEqual => exact Or.inl ⟨_, rfl, .comparison (by simp)⟩
  | less => exact Or.inl ⟨_, rfl, .comparison (by simp)⟩
  | lessEqual => exact Or.inl ⟨_, rfl, .comparison (by simp)⟩
  | equalEqual => exact absurd (by simp) hkind
  | bangEqual => exact absurd (by simp) hkind
  | _ => exact Or.inr ⟨rfl, by simp [binaryOperators]⟩

/-- Operands that are neither two numbers nor two strings are rejected. -/
theorem rejectsBinary_wrongOperands {kind : Kind} {left right : Tag}
    (hkind : kind ∉ [equalEqual, bangEqual])
    (hnumbers : ¬(left = .number ∧ right = .number))
    (hstrings : kind = .plus → ¬(left = .string ∧ right = .string)) :
    RejectsBinary kind left right kind.wrongOperands.message := by
  unfold wrongOperands
  split
  case isTrue hplus =>
    subst hplus
    exact .sum hnumbers (hstrings rfl)
  case isFalse hplus =>
    refine .operands ?_ hnumbers
    intro hmem
    exact (List.mem_cons.1 hmem).elim hplus hkind

/-- An operator that is no equality has a result by a rule, or rejects its operands. -/
theorem combine_by_rule {kind : Kind} (hkind : kind ∉ [equalEqual, bangEqual])
    (v w : Value) :
    (∃ u, kind.combine v w = .ok u ∧ BinaryRule kind v.tag w.tag u.tag) ∨
      ∃ mismatch, kind.combine v w = .error mismatch ∧
        RejectsBinary kind v.tag w.tag mismatch.message := by
  unfold combine
  split
  case h_1 x y =>
    rcases onNumbers?_by_rule hkind x y with ⟨u, hresult, hrule⟩ | ⟨hresult, hunknown⟩
    · rw [hresult]
      exact Or.inl ⟨u, rfl, hrule⟩
    · rw [hresult]
      exact Or.inr ⟨.unknownBinary, rfl, .unknown hunknown⟩
  case h_2 s t =>
    split
    case isTrue hplus =>
      subst hplus
      exact Or.inl ⟨.string (s ++ t), rfl, .concatenation⟩
    case isFalse hplus =>
      refine Or.inr ⟨_, rfl, rejectsBinary_wrongOperands hkind nofun ?_⟩
      exact fun hkind => absurd hkind hplus
  case h_3 hnumbers hstrings =>
    refine Or.inr ⟨_, rfl, rejectsBinary_wrongOperands hkind ?_ ?_⟩
    · rintro ⟨hv, hw⟩
      rcases Value.tag_eq_number hv with ⟨x, rfl⟩
      rcases Value.tag_eq_number hw with ⟨y, rfl⟩
      exact hnumbers x y rfl rfl
    · rintro - ⟨hv, hw⟩
      rcases Value.tag_eq_string hv with ⟨s, rfl⟩
      rcases Value.tag_eq_string hw with ⟨t, rfl⟩
      exact hstrings s t rfl rfl

/-- A binary operator has a result by a rule, or rejects its operands. -/
theorem applyBinary_by_rule (kind : Kind) (v w : Value) :
    (∃ u, kind.applyBinary v w = .ok u ∧ BinaryRule kind v.tag w.tag u.tag) ∨
      ∃ mismatch, kind.applyBinary v w = .error mismatch ∧
        RejectsBinary kind v.tag w.tag mismatch.message := by
  unfold applyBinary
  split
  case h_1 => exact Or.inl ⟨_, rfl, .equality (by simp)⟩
  case h_2 => exact Or.inl ⟨_, rfl, .equality (by simp)⟩
  case h_3 hequal hbang =>
    refine combine_by_rule ?_ v w
    simp only [List.mem_cons, List.not_mem_nil, or_false, not_or]
    exact ⟨hequal, hbang⟩

/-! ## The rules leave no choice -/

/-- A unary operator has one result for a sort. -/
theorem UnaryRule.unique {kind : Kind} {operand result result' : Tag}
    (hrule : UnaryRule kind operand result) (hrule' : UnaryRule kind operand result') :
    result = result' := by
  cases hrule <;> cases hrule' <;> rfl

/-- A unary operator with a result for a sort does not reject it. -/
theorem UnaryRule.not_rejects {kind : Kind} {operand result : Tag} {text : String}
    (hrule : UnaryRule kind operand result) : ¬RejectsUnary kind operand text := by
  intro hrejects
  cases hrule with
  | negation =>
      cases hrejects with
      | operand htag => exact htag rfl
      | unknown hkind => simp at hkind
  | inversion =>
      cases hrejects with
      | unknown hkind => simp at hkind

/-- A unary operator has one reason to reject a sort. -/
theorem RejectsUnary.unique {kind : Kind} {operand : Tag} {text text' : String}
    (hrejects : RejectsUnary kind operand text) (hrejects' : RejectsUnary kind operand text') :
    text = text' := by
  cases hrejects with
  | operand htag =>
      cases hrejects' with
      | operand htag' => rfl
      | unknown hkind => simp at hkind
  | unknown hkind =>
      cases hrejects' with
      | operand htag => simp at hkind
      | unknown hkind' => rfl

/-- A binary operator has one result for two sorts. -/
theorem BinaryRule.unique {kind : Kind} {left right result result' : Tag}
    (hrule : BinaryRule kind left right result)
    (hrule' : BinaryRule kind left right result') : result = result' := by
  -- Where both rules allow the sorts, the three families of kinds have none in common.
  cases hrule <;> cases hrule' <;> grind

/-- A binary operator with a result for two sorts does not reject them. -/
theorem BinaryRule.not_rejects {kind : Kind} {left right result : Tag} {text : String}
    (hrule : BinaryRule kind left right result) : ¬RejectsBinary kind left right text := by
  intro hrejects
  cases hrule with
  | equality hkind =>
      cases hrejects with
      | sum => simp at hkind
      | operands hother => exact hother (List.mem_cons_of_mem _ hkind)
      | unknown hother => simp_all [binaryOperators]
  | sum =>
      cases hrejects with
      | sum hnumbers => exact hnumbers ⟨rfl, rfl⟩
      | operands hother hnumbers => exact hnumbers ⟨rfl, rfl⟩
      | unknown hother => simp [binaryOperators] at hother
  | concatenation =>
      cases hrejects with
      | sum hnumbers hstrings => exact hstrings ⟨rfl, rfl⟩
      | operands hother => simp at hother
  | arithmetic hkind =>
      cases hrejects with
      | sum hnumbers => exact hnumbers ⟨rfl, rfl⟩
      | operands hother hnumbers => exact hnumbers ⟨rfl, rfl⟩
      | unknown hother => simp_all [binaryOperators]
  | comparison hkind =>
      cases hrejects with
      | sum hnumbers => exact hnumbers ⟨rfl, rfl⟩
      | operands hother hnumbers => exact hnumbers ⟨rfl, rfl⟩
      | unknown hother => simp_all [binaryOperators]

/-- A binary operator has one reason to reject two sorts. -/
theorem RejectsBinary.unique {kind : Kind} {left right : Tag} {text text' : String}
    (hrejects : RejectsBinary kind left right text)
    (hrejects' : RejectsBinary kind left right text') : text = text' := by
  cases hrejects with
  | sum hnumbers hstrings =>
      cases hrejects' with
      | sum => rfl
      | operands hother => simp at hother
      | unknown => exact absurd ⟨rfl, rfl⟩ hnumbers
  | operands hother hnumbers =>
      cases hrejects' with
      | sum => simp at hother
      | operands => rfl
      | unknown => exact absurd ⟨rfl, rfl⟩ hnumbers
  | unknown hother =>
      cases hrejects' with
      | sum hnumbers => exact absurd ⟨rfl, rfl⟩ hnumbers
      | operands hother' hnumbers => exact absurd ⟨rfl, rfl⟩ hnumbers
      | unknown => rfl

end Token.Kind
end Lox
