import Lox.Proofs.Expr.PrintedForm

/-!
# The printed form is unambiguous

A printed tree is read from its first character on.  A parenthesis opens a node, whose name
ends at the first blank; anything else is a literal, which ends at a blank or a parenthesis.
So a text begins with the form of one tree at most, up to what a form does not show: the
kinds and the lines of the operators.

Main results:

- Theorem {lit}`Legible.determined`: a text begins with the form of one tree at most.
- Theorem {lit}`print_eq_iff`: two trees are printed alike exactly if they match.
-/

namespace Lox
namespace Expr

/-! ## Matching trees -/

/-- No value stands bare in the tree, no literal of it is a string, and no operator has a
blank in its name or the name of a grouping.  The name may be empty or have parentheses in it:
it ends at the blank behind it. -/
def Legible (e : Expr) : Prop :=
  e.MadeOf (¬·.IsString) fun lexeme => ' ' ∉ lexeme.toList ∧ lexeme ≠ "group"

/-- The same nodes in the same places, with equal literals and with operators of equal
lexemes. -/
inductive Matches : Expr → Expr → Prop where
  | literal (value : Value) : Matches (.literal value) (.literal value)
  | grouping {inner inner' : Expr} (hinner : Matches inner inner') :
      Matches (.grouping inner) (.grouping inner')
  | unary {operator operator' : Token} {operand operand' : Expr}
      (hlexeme : operator.lexeme = operator'.lexeme) (hoperand : Matches operand operand') :
      Matches (.unary operator operand) (.unary operator' operand')
  | binary {left left' right right' : Expr} {operator operator' : Token}
      (hlexeme : operator.lexeme = operator'.lexeme) (hleft : Matches left left')
      (hright : Matches right right') :
      Matches (.binary left operator right) (.binary left' operator' right')

/-- Matching trees have the same form. -/
theorem Matches.form_eq {e e' : Expr} (hmatches : Matches e e') : e.form = e'.form := by
  induction hmatches with
  | literal value => rfl
  | grouping hinner ih => simp only [form, ih]
  | unary hlexeme hoperand ih => simp only [form, hlexeme, ih]
  | binary hlexeme hleft hright ihleft ihright => simp only [form, hlexeme, ihleft, ihright]

/-! ## Reading names and words -/

/-- The name of a node ends at its first blank. -/
theorem enclosed_append_inj {name name' operands operands' rest rest' : List Char}
    (hname : ' ' ∉ name) (hname' : ' ' ∉ name')
    (heq : enclosed name operands ++ rest = enclosed name' operands' ++ rest') :
    name = name' ∧ operands ++ ')' :: rest = operands' ++ ')' :: rest' := by
  have hsplit : name ++ ' ' :: (operands ++ ')' :: rest) =
      name' ++ ' ' :: (operands' ++ ')' :: rest') := by
    simpa [enclosed] using heq
  exact Lexeme.append_inj_of_stop hname hname' hsplit

/-- A literal ends where its word ends. -/
theorem chars_append_inj {v w : Value} {rest rest' : List Char} (hv : ¬v.IsString)
    (hw : ¬w.IsString) (hrest : Ends rest) (hrest' : Ends rest')
    (heq : v.chars ++ rest = w.chars ++ rest') : v = w ∧ rest = rest' := by
  have hall {u : Value} (hu : ¬u.IsString) :
      ∀ c ∈ u.chars, (c != ' ' && c != ')') = true := by
    intro c hc
    rcases Value.wordChar_of_mem_chars hu c hc with ⟨hblank, -, -, hparenthesis⟩
    simp [hblank, hparenthesis]
  have hstop {text : List Char} (htext : Ends text) :
      text.takeWhile (fun c => c != ' ' && c != ')') = [] := by
    rcases htext with rfl | ⟨c, more, rfl, rfl | rfl⟩
    · rfl
    · rfl
    · rfl
  rcases Lexeme.append_inj_of_takeWhile (hall hv) (hall hw) (hstop hrest) (hstop hrest') heq with
    ⟨hchars, hafter⟩
  have hread := congrArg Value.ofChars? hchars
  rw [Value.ofChars?_chars hv, Value.ofChars?_chars hw, Option.some_inj] at hread
  exact ⟨hread, hafter⟩

/-- No literal begins like another node. -/
theorem chars_append_ne_enclosed {v : Value} (hv : ¬v.IsString)
    (rest name operands rest' : List Char) :
    v.chars ++ rest ≠ enclosed name operands ++ rest' := by
  intro heq
  cases hchars : v.chars with
  | nil => exact Value.chars_ne_nil hv hchars
  | cons c more =>
      rw [hchars] at heq
      have hfirst : c = '(' := (List.cons.inj heq).1
      have hword := Value.wordChar_of_mem_chars hv c (by simp [hchars])
      exact hword.2.2.1 hfirst

/-! ## Reading trees -/

/-- No operator is taken for a grouping. -/
theorem group_ne_toList {lexeme : String} (hlexeme : lexeme ≠ "group") :
    ['g', 'r', 'o', 'u', 'p'] ≠ lexeme.toList := by
  intro hname
  apply hlexeme
  rw [← String.toList_inj, ← hname]
  rfl

/-- A text that begins with the form of the tree begins with the forms of no trees but those
that match it, and all of them end at the same place. -/
def Determined (e : Expr) : Prop :=
  ∀ {e' : Expr} {rest rest' : List Char}, e'.Legible → Ends rest → Ends rest' →
    e.form ++ rest = e'.form ++ rest' → Matches e e' ∧ rest = rest'

/-- The text of a literal that is no string determines it. -/
theorem determined_literal {value : Value} (hvalue : ¬value.IsString) :
    Determined (.literal value) := by
  intro e' rest rest' he' hrest hrest' heq
  cases e' with
  | literal value' =>
      rcases chars_append_inj hvalue he' hrest hrest' heq with ⟨rfl, hafter⟩
      exact ⟨.literal value, hafter⟩
  | bare _ => exact he'.elim
  | _ => exact absurd heq (chars_append_ne_enclosed hvalue _ _ _ _)

/-- The printed form of a grouping determines it if that of the inner tree does. -/
theorem Determined.grouping {inner : Expr} (hinner : Determined inner) :
    Determined (.grouping inner) := by
  intro e' rest rest' he' _ _ heq
  cases e' with
  | literal value' => exact absurd heq.symm (chars_append_ne_enclosed he' _ _ _ _)
  | grouping inner' =>
      rcases enclosed_append_inj (by decide) (by decide) heq with ⟨-, hoperands⟩
      have hlegible : inner'.Legible := he'
      rcases hinner hlegible (ends_parenthesis _) (ends_parenthesis _) hoperands with
        ⟨hmatches, hafter⟩
      exact ⟨.grouping hmatches, (List.cons.inj hafter).2⟩
  | unary operator' operand' =>
      rcases enclosed_append_inj (by decide) he'.1.1 heq with ⟨hname, -⟩
      exact absurd hname (group_ne_toList he'.1.2)
  | binary left' operator' right' =>
      rcases enclosed_append_inj (by decide) he'.1.1 heq with ⟨hname, -⟩
      exact absurd hname (group_ne_toList he'.1.2)
  | bare _ => exact he'.elim

/-- With one operand, a tree is determined if the operand is, and if its lexeme holds no blank and
is not the name of a grouping. -/
theorem Determined.unary {operator : Token} {operand : Expr}
    (hblank : ' ' ∉ operator.lexeme.toList) (hgroup : operator.lexeme ≠ "group")
    (hoperand : Determined operand) : Determined (.unary operator operand) := by
  intro e' rest rest' he' _ _ heq
  cases e' with
  | literal value' => exact absurd heq.symm (chars_append_ne_enclosed he' _ _ _ _)
  | grouping inner' =>
      rcases enclosed_append_inj hblank (by decide) heq with ⟨hname, -⟩
      exact absurd hname.symm (group_ne_toList hgroup)
  | unary operator' operand' =>
      rcases enclosed_append_inj hblank he'.1.1 heq with ⟨hname, hoperands⟩
      rcases hoperand he'.2 (ends_parenthesis _) (ends_parenthesis _) hoperands with
        ⟨hmatches, hafter⟩
      exact ⟨.unary (String.toList_inj.1 hname) hmatches, (List.cons.inj hafter).2⟩
  | binary left' operator' right' =>
      -- The one operand ends at a parenthesis, the first of the two at a blank.
      rcases enclosed_append_inj hblank he'.1.1 heq with ⟨-, hoperands⟩
      rw [List.append_assoc, List.cons_append] at hoperands
      rcases hoperand he'.2.1 (ends_parenthesis _) (ends_blank _) hoperands with ⟨-, hafter⟩
      cases hafter
  | bare _ => exact he'.elim

/-- With two operands, it is determined if both are: the form of the left one tells where the
right one begins. -/
theorem Determined.binary {operator : Token} {left right : Expr}
    (hblank : ' ' ∉ operator.lexeme.toList) (hgroup : operator.lexeme ≠ "group")
    (hleft : Determined left) (hright : Determined right) :
    Determined (.binary left operator right) := by
  intro e' rest rest' he' _ _ heq
  cases e' with
  | literal value' => exact absurd heq.symm (chars_append_ne_enclosed he' _ _ _ _)
  | grouping inner' =>
      rcases enclosed_append_inj hblank (by decide) heq with ⟨hname, -⟩
      exact absurd hname.symm (group_ne_toList hgroup)
  | unary operator' operand' =>
      rcases enclosed_append_inj hblank he'.1.1 heq with ⟨-, hoperands⟩
      rw [List.append_assoc, List.cons_append] at hoperands
      rcases hleft he'.2 (ends_blank _) (ends_parenthesis _) hoperands with ⟨-, hafter⟩
      cases hafter
  | binary left' operator' right' =>
      rcases enclosed_append_inj hblank he'.1.1 heq with ⟨hname, hoperands⟩
      rw [List.append_assoc, List.cons_append, List.append_assoc, List.cons_append]
        at hoperands
      rcases hleft he'.2.1 (ends_blank _) (ends_blank _) hoperands with ⟨hmatches, hafter⟩
      rcases hright he'.2.2 (ends_parenthesis _) (ends_parenthesis _)
        (List.cons.inj hafter).2 with ⟨hmatches', hmore⟩
      exact ⟨.binary (String.toList_inj.1 hname) hmatches hmatches', (List.cons.inj hmore).2⟩
  | bare _ => exact he'.elim

/-- A text begins with the form of one tree at most. -/
theorem Legible.determined {e : Expr} (he : e.Legible) : Determined e := by
  induction e with
  | literal value => exact determined_literal he
  | grouping inner ih => exact Determined.grouping (ih he)
  | unary operator operand ih => exact Determined.unary he.1.1 he.1.2 (ih he.2)
  | binary left operator right ihleft ihright =>
      exact Determined.binary he.1.1 he.1.2 (ihleft he.2.1) (ihright he.2.2)
  | bare value => exact he.elim

/-- Two trees are printed alike exactly if they match. -/
theorem print_eq_iff {e e' : Expr} (he : e.Legible) (he' : e'.Legible) :
    (∃ text, e.print = .ok text ∧ e'.print = .ok text) ↔ Matches e e' := by
  rw [print_of_wellFormed (MadeOf.wellFormed he), print_of_wellFormed (MadeOf.wellFormed he')]
  constructor
  · rintro ⟨text, hprint, hprint'⟩
    cases hprint
    have hform : e.form ++ [] = e'.form ++ [] := by
      rw [String.ofList_injective (Except.ok.inj hprint')]
    exact (he.determined he' (Or.inl rfl) (Or.inl rfl) hform).1
  · intro hmatches
    exact ⟨_, rfl, by rw [hmatches.form_eq]⟩

/-- The negation of one and minus one are told apart. -/
theorem print_eq_iff_negation :
    ∃ e e' : Expr, e.Legible ∧ e'.Legible ∧ ¬Matches e e' ∧
      ¬∃ text, e.print = .ok text ∧ e'.print = .ok text := by
  let e : Expr := .unary ⟨.minus, "-", .nil, 1⟩ (.literal (.number .one))
  let e' : Expr := .literal (.number (.finite true ⟨0x3ff0000000000000, by decide⟩))
  have he : e.Legible := ⟨⟨by decide, by decide⟩, id⟩
  have he' : e'.Legible := id
  have hne (operator : Token) (operand : Expr) (value : Value) :
      ¬Matches (.unary operator operand) (.literal value) := nofun
  exact ⟨e, e', he, he', hne _ _ _, fun halike => hne _ _ _ ((print_eq_iff he he').1 halike)⟩

end Expr
end Lox
