import Lox.Proofs.Lexeme.Piece

/-!
# The meaning of lexemes

Operators, strings, numbers and words have tokens; the lexeme alone decides the kind
and the literal of its token.  A string means the characters between its quotes, as
they are, and a number what its digits denote.  A word is a keyword only if all of it
is reserved.

Main results:

- Theorem {lit}`means_unique`: a lexeme means one thing at most.
- Theorem {lit}`means_of_meaning?`: the scanner gives a lexeme its meaning.
- Theorem {lit}`meaning?_eq_none_iff`: the pieces with tokens are those of the four
  classes.
-/

namespace Lox
namespace Lexeme

/-! ## Meanings -/

/-- The kind and the literal that a lexeme stands for. -/
inductive Means : List Char → Token.Kind → Value → Prop where
  | operator {text : List Char} {kind : Token.Kind} (hoperator : (text, kind) ∈ operators) :
      Means text kind .nil
  | string {body : List Char} (hbody : '\x22' ∉ body) :
      Means ('\x22' :: (body ++ ['\x22'])) .string (.string (String.ofList body))
  | number {text : List Char} {x : Binary64} (hnumber : Shape.number.Accepts text)
      (hread : Numeral.read? text = some x) : Means text .number (.number x)
  | keyword (keyword : Keyword) : Means keyword.spelling.toList (.keyword keyword) .nil
  | name {text : List Char} (hword : Shape.word.Accepts text)
      (hfree : ∀ keyword : Keyword, keyword.spelling.toList ≠ text) :
      Means text .identifier .nil

/-- The classes whose lexemes have tokens. -/
def Shape.HasToken : Shape → Prop
  | .operator _ => True
  | .string => True
  | .number => True
  | .word => True
  | _ => False

/-- A letter with letters and digits behind it is a word. -/
theorem accepts_word {c : Char} {rest : List Char} (hletter : isLetter c = true)
    (hrest : rest.all isWordCharacter = true) : Shape.word.Accepts (c :: rest) := by
  refine ⟨c, rest, rfl, (isLetter_iff c).1 hletter, ?_⟩
  intro d hd
  exact (isWordCharacter_iff d).1 (List.all_eq_true.1 hrest d hd)

/-- Every reserved word is a word. -/
theorem accepts_keyword (keyword : Keyword) :
    Shape.word.Accepts keyword.spelling.toList := by
  have hfirst : ∀ keyword : Keyword, keyword.spelling.toList.head?.any isLetter = true := by
    intro keyword
    cases keyword <;> rfl
  have hall : ∀ keyword : Keyword, keyword.spelling.toList.all isWordCharacter = true := by
    intro keyword
    cases keyword <;> rfl
  have hletter := hfirst keyword
  have hword := hall keyword
  cases hspelling : keyword.spelling.toList with
  | nil =>
      rw [hspelling] at hletter
      cases hletter
  | cons c rest =>
      rw [hspelling] at hletter hword
      rw [List.all_cons, Bool.and_eq_true] at hword
      exact accepts_word hletter hword.2

/-- A lexeme with a meaning belongs to a class with tokens. -/
theorem Means.exists_shape {text : List Char} {kind : Token.Kind} {literal : Value}
    (hmeans : Means text kind literal) :
    ∃ shape : Shape, shape.HasToken ∧ shape.Accepts text := by
  cases hmeans with
  | operator hoperator => exact ⟨.operator kind, trivial, hoperator⟩
  | string hbody => exact ⟨.string, trivial, _, rfl, hbody⟩
  | number hnumber hread => exact ⟨.number, trivial, hnumber⟩
  | keyword keyword => exact ⟨.word, trivial, accepts_keyword keyword⟩
  | name hword hfree => exact ⟨.word, trivial, hword⟩

/-- No token of a lexeme ends the text. -/
theorem Means.kind_ne_endOfText {text : List Char} {kind : Token.Kind} {literal : Value}
    (hmeans : Means text kind literal) : kind ≠ .endOfText := by
  cases hmeans with
  | operator hoperator =>
      have hall : ∀ operator ∈ operators, operator.2 ≠ .endOfText := by decide
      exact hall _ hoperator
  | _ => exact Token.Kind.noConfusion

end Lexeme

namespace Piece

open Lexeme (Shape Means)

/-! ## The meaning of a piece -/

/-- A string without its quotes. -/
theorem tail_dropLast_quoted (body : List Char) :
    ('\x22' :: (body ++ ['\x22'])).tail.dropLast = body := by
  rw [List.tail_cons, List.dropLast_concat]

/-- The kind of a word is its keyword, or that of a name. -/
theorem means_wordKind {text : List Char} (hword : Shape.word.Accepts text) :
    Means text (Lexeme.wordKind text) .nil := by
  cases hfound : Keyword.ofWord? text with
  | some keyword =>
      rw [Lexeme.wordKind, hfound, ← Keyword.spelling_of_ofWord? hfound]
      exact .keyword keyword
  | none =>
      rw [Lexeme.wordKind, hfound]
      refine .name hword ?_
      rintro keyword rfl
      rw [Keyword.ofWord?_spelling] at hfound
      cases hfound

/-- The first piece of a text has the meaning of its lexeme. -/
theorem means_of_meaning? {c : Char} {rest : List Char} {meaning : Token.Kind × Value}
    (hmeaning : (first c rest).meaning? = some meaning) :
    (first c rest).shape.HasToken ∧ Means (first c rest).text meaning.1 meaning.2 := by
  cases hshape : (first c rest).shape with
  | operator kind =>
      rw [meaning?, hshape] at hmeaning
      cases hmeaning
      exact ⟨trivial, .operator (accepts_of_shape hshape nofun nofun)⟩
  | string =>
      rcases accepts_of_shape hshape nofun nofun with ⟨body, htext, hbody⟩
      rw [meaning?, hshape] at hmeaning
      cases hmeaning
      rw [htext, tail_dropLast_quoted]
      exact ⟨trivial, .string hbody⟩
  | number =>
      rcases exists_read?_of_shape hshape with ⟨x, hread⟩
      rw [meaning?, hshape] at hmeaning
      simp only [hread, Option.map_some, Option.some.injEq] at hmeaning
      cases hmeaning
      exact ⟨trivial, .number (accepts_of_shape hshape nofun nofun) hread⟩
  | word =>
      rw [meaning?, hshape] at hmeaning
      cases hmeaning
      exact ⟨trivial, means_wordKind (accepts_of_shape hshape nofun nofun)⟩
  | _ =>
      rw [meaning?, hshape] at hmeaning
      cases hmeaning

/-- The pieces without a token are those of the other classes. -/
theorem meaning?_eq_none_iff (c : Char) (rest : List Char) :
    (first c rest).meaning? = none ↔ ¬(first c rest).shape.HasToken := by
  cases hshape : (first c rest).shape with
  | number =>
      rcases exists_read?_of_shape hshape with ⟨x, hread⟩
      simp [meaning?, hshape, hread, Shape.HasToken]
  | _ => simp [meaning?, hshape, Shape.HasToken]

/-- A lexeme in its class is given its meaning. -/
theorem meaning?_of_means {shape : Shape} {text : List Char} {kind : Token.Kind}
    {literal : Value} (haccepts : shape.Accepts text) (hmeans : Means text kind literal) :
    (Piece.mk shape text).meaning? = some (kind, literal) := by
  cases hmeans with
  | operator hoperator =>
      have hshape : shape = .operator kind := Lexeme.accepts_unique haccepts hoperator
      rw [hshape, meaning?]
  | @string body hbody =>
      have hshape : shape = .string := Lexeme.accepts_unique haccepts ⟨body, rfl, hbody⟩
      rw [hshape, meaning?, tail_dropLast_quoted]
  | number hnumber hread =>
      have hshape : shape = .number := Lexeme.accepts_unique haccepts hnumber
      simp only [hshape, meaning?, hread, Option.map_some]
  | keyword keyword =>
      have hshape : shape = .word :=
        Lexeme.accepts_unique haccepts (Lexeme.accepts_keyword keyword)
      simp only [hshape, meaning?, Lexeme.wordKind_spelling]
  | name hword hfree =>
      have hshape : shape = .word := Lexeme.accepts_unique haccepts hword
      have hnone : Keyword.ofWord? text = none := by
        cases hfound : Keyword.ofWord? text with
        | none => rfl
        | some keyword => exact absurd (Keyword.spelling_of_ofWord? hfound) (hfree keyword)
      simp only [hshape, meaning?, Lexeme.wordKind, hnone]

end Piece

/-- A lexeme means one thing at most. -/
theorem Lexeme.means_unique {text : List Char} {kind kind' : Token.Kind}
    {literal literal' : Value} (hmeans : Means text kind literal)
    (hmeans' : Means text kind' literal') : kind = kind' ∧ literal = literal' := by
  rcases hmeans.exists_shape with ⟨shape, -, haccepts⟩
  have heq := (Piece.meaning?_of_means haccepts hmeans).symm.trans
    (Piece.meaning?_of_means haccepts hmeans')
  cases heq
  exact ⟨rfl, rfl⟩

end Lox
