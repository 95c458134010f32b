import Lox.Expr.Print
import Lox.Proofs.Decimal.NumberText

/-!
# The printed form of a tree

The characters of a printed form follow the tree: a literal is its text, and every other node
its name and its operands in parentheses.  A literal that is no string is one word, without
blanks and parentheses, and the word tells which value it is.

Main results:

- Theorem {lit}`Value.ofChars?_chars`: a literal that is no string is read back.
- Theorem {lit}`Value.wordChar_of_mem_chars`: it is one word.
- Theorem {lit}`Expr.print_of_wellFormed`: a tree without bare values is printed as its form.
-/

namespace Lox

/-! ## Literals -/

namespace Value

/-- The characters of the text of a value. -/
def chars (v : Value) : List Char :=
  v.text.toList

/-- The value is a string. -/
def IsString : Value → Prop
  | .string _ => True
  | _ => False

@[simp]
theorem chars_nil : chars .nil = ['n', 'i', 'l'] :=
  rfl

@[simp]
theorem chars_true : chars (.boolean true) = ['t', 'r', 'u', 'e'] :=
  rfl

@[simp]
theorem chars_false : chars (.boolean false) = ['f', 'a', 'l', 's', 'e'] :=
  rfl

@[simp]
theorem chars_number (x : Binary64) : chars (.number x) = x.chars .lox :=
  String.toList_ofList

/-- The value of a word: one of three names, or a number. -/
def ofChars? (word : List Char) : Option Value :=
  if word = ['n', 'i', 'l'] then
    some .nil
  else if word = ['t', 'r', 'u', 'e'] then
    some (.boolean true)
  else if word = ['f', 'a', 'l', 's', 'e'] then
    some (.boolean false)
  else
    (Numeral.read? word).map .number

/-- What is no numeral is not the text of a number. -/
theorem chars_ne_of_read?_eq_none {x : Binary64} {word : List Char}
    (hword : Numeral.read? word = none) : x.chars .lox ≠ word := by
  rintro rfl
  rw [Binary64.read?_chars] at hword
  cases hword

/-- A value that is no string is read back from its text. -/
theorem ofChars?_chars {v : Value} (hv : ¬v.IsString) : ofChars? v.chars = some v := by
  cases v with
  | nil => rfl
  | boolean b => cases b <;> rfl
  | number x =>
      have hnil : x.chars .lox ≠ ['n', 'i', 'l'] := chars_ne_of_read?_eq_none (by decide)
      have htrue : x.chars .lox ≠ ['t', 'r', 'u', 'e'] := chars_ne_of_read?_eq_none (by decide)
      have hfalse : x.chars .lox ≠ ['f', 'a', 'l', 's', 'e'] :=
        chars_ne_of_read?_eq_none (by decide)
      simp [ofChars?, hnil, htrue, hfalse, Binary64.read?_chars]
  | string s => exact absurd trivial hv

/-- A character that ends no word: neither a blank nor a parenthesis. -/
def WordChar (c : Char) : Prop :=
  c ≠ ' ' ∧ c ≠ '\n' ∧ c ≠ '(' ∧ c ≠ ')'

theorem wordChar_of_numeric {c : Char} (hnumeric : Binary64.Numeric c) : WordChar c := by
  have hne (other : Char) (hother : ¬Binary64.Numeric other) : c ≠ other := by
    rintro rfl
    exact hother hnumeric
  exact ⟨hne _ (by decide), hne _ (by decide), hne _ (by decide), hne _ (by decide)⟩

/-- The text of a value that is no string is one word. -/
theorem wordChar_of_mem_chars {v : Value} (hv : ¬v.IsString) : ∀ c ∈ v.chars, WordChar c := by
  cases v with
  | nil => simp [WordChar]
  | boolean b => cases b <;> simp [WordChar]
  | number x =>
      intro c hc
      rw [chars_number] at hc
      exact wordChar_of_numeric (Binary64.numeric_of_mem_chars hc)
  | string s => exact absurd trivial hv

/-- A value that is no string has a text that is not empty. -/
theorem chars_ne_nil {v : Value} (hv : ¬v.IsString) : v.chars ≠ [] := by
  intro hnone
  have hread := ofChars?_chars hv
  rw [hnone] at hread
  cases hread

end Value

namespace Expr

/-! ## Trees -/

/-- The tree is made of literals and of operator lexemes of the given sorts, and no value
stands bare in it. -/
def MadeOf (literals : Value → Prop) (lexemes : String → Prop) : Expr → Prop
  | .literal value => literals value
  | .grouping inner => inner.MadeOf literals lexemes
  | .unary operator operand => lexemes operator.lexeme ∧ operand.MadeOf literals lexemes
  | .binary left operator right =>
    lexemes operator.lexeme ∧ left.MadeOf literals lexemes ∧ right.MadeOf literals lexemes
  | .bare _ => False

/-- In a tree that is made of literals and operators no value stands bare. -/
theorem MadeOf.wellFormed {literals : Value → Prop} {lexemes : String → Prop} {e : Expr}
    (he : e.MadeOf literals lexemes) : e.wellFormed = true := by
  induction e with
  | literal value => rfl
  | grouping inner ih => exact ih he
  | unary operator operand ih => exact ih he.2
  | binary left operator right ihleft ihright =>
      rw [Expr.wellFormed, ihleft he.2.1, ihright he.2.2]
      rfl
  | bare value => exact he.elim

/-- A name and its operands in parentheses. -/
def enclosed (name operands : List Char) : List Char :=
  '(' :: (name ++ ' ' :: (operands ++ [')']))

/-- The characters of the printed form of a tree.  A bare value has none. -/
def form : Expr → List Char
  | .literal value => value.chars
  | .grouping inner => enclosed ['g', 'r', 'o', 'u', 'p'] inner.form
  | .unary operator operand => enclosed operator.lexeme.toList operand.form
  | .binary left operator right =>
    enclosed operator.lexeme.toList (left.form ++ ' ' :: right.form)
  | .bare _ => []

theorem parenthesize_singleton (name operand : String) :
    parenthesize name [operand] = String.ofList (enclosed name.toList operand.toList) := by
  apply String.toList_inj.1
  simp [parenthesize, enclosed]

theorem parenthesize_pair (name left right : String) :
    parenthesize name [left, right] =
      String.ofList (enclosed name.toList (left.toList ++ ' ' :: right.toList)) := by
  apply String.toList_inj.1
  simp [parenthesize, enclosed]

/-- A tree without bare values is printed as its form. -/
theorem print_of_wellFormed {e : Expr} (he : e.wellFormed = true) :
    e.print = .ok (String.ofList e.form) := by
  induction e with
  | literal value => simp [form, Value.chars]
  | grouping inner ih =>
      rw [wellFormed] at he
      simp [print, ih he, parenthesize_singleton, form]
  | unary operator operand ih =>
      rw [wellFormed] at he
      simp [print, ih he, parenthesize_singleton, form]
  | binary left operator right ihleft ihright =>
      rw [wellFormed, Bool.and_eq_true] at he
      have hprint : print (.binary left operator right) =
          .ok (parenthesize operator.lexeme
            [String.ofList left.form, String.ofList right.form]) := by
        rw [print, ihleft he.1, ihright he.2]
        rfl
      rw [hprint, parenthesize_pair, String.toList_ofList, String.toList_ofList, form]
  | bare value => cases he

/-! ## What follows a tree -/

/-- What follows a printed tree: the text ends, or a blank or a parenthesis stands there. -/
def Ends (rest : List Char) : Prop :=
  rest = [] ∨ ∃ c more, rest = c :: more ∧ (c = ' ' ∨ c = ')')

theorem ends_blank (more : List Char) : Ends (' ' :: more) :=
  Or.inr ⟨' ', more, rfl, Or.inl rfl⟩

theorem ends_parenthesis (more : List Char) : Ends (')' :: more) :=
  Or.inr ⟨')', more, rfl, Or.inr rfl⟩

end Expr
end Lox
