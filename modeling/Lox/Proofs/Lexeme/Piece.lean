import Lox.Scanner.Basic
import Lox.Proofs.Lexeme.LongestMatch
import Lox.Proofs.Numeral.Plain

/-!
# Pieces of a text

A piece is a lexeme with its class.  The class and the text decide what the piece
adds to the tokens and to the faults; the lines on which it begins and ends are all
that the surrounding text contributes.

Main results:

- Theorem {lit}`cut_first`: the first piece of a text is cut off by longest match.
- Theorem {lit}`accepts_of_shape`: it belongs to its class if it is no error.
-/

namespace Lox

/-- A lexeme of a text with its class. -/
structure Piece where
  shape : Lexeme.Shape
  text : List Char

namespace Piece

open Lexeme (Shape)

/-- The first piece of a text that begins with the given character. -/
def first (c : Char) (rest : List Char) : Piece where
  shape := (Lexeme.tail c rest).1
  text := c :: (Lexeme.tail c rest).2

/-! ## Tokens and faults -/

/-- The kind and the literal of the token of a piece, if it has one. -/
def meaning? (piece : Piece) : Option (Token.Kind × Value) :=
  match piece.shape with
  | .operator kind => some (kind, .nil)
  | .string => some (.string, .string (String.ofList piece.text.tail.dropLast))
  | .number => (Numeral.read? piece.text).map fun x => (.number, .number x)
  | .word => some (Lexeme.wordKind piece.text, .nil)
  | _ => none

/-- The token of a piece that ends on the given line. -/
def token? (piece : Piece) (line : Nat) : Option Token :=
  piece.meaning?.map fun meaning =>
    ⟨meaning.1, String.ofList piece.text, meaning.2, line⟩

/-- The fault of a piece that begins on the given line. -/
def fault? (piece : Piece) (line : Nat) : Option Fault :=
  match piece.shape with
  | .unterminated => some ⟨line, .unterminatedString⟩
  | .unexpected => some ⟨line, .unexpectedCharacter⟩
  | _ => none

/-! ## The first piece -/

/-- The first piece is the one that longest match cuts off. -/
theorem cut_first (c : Char) (rest : List Char) :
    Lexeme.Cut (first c rest).shape (c :: rest) (first c rest).text :=
  Lexeme.cut_tail c rest

/-- The first piece of a text is its beginning. -/
theorem text_first_isPrefix (c : Char) (rest : List Char) :
    (first c rest).text <+: c :: rest :=
  List.cons_prefix_cons.2 ⟨rfl, Lexeme.tail_isPrefix c rest⟩

/-- A piece belongs to its class if that is no class of errors. -/
theorem accepts_of_shape {c : Char} {rest : List Char} {shape : Shape}
    (hshape : (first c rest).shape = shape) (hopen : shape ≠ .unterminated)
    (hunexpected : shape ≠ .unexpected) : shape.Accepts (first c rest).text := by
  subst hshape
  rcases Lexeme.accepts_tail c rest with haccepts | ⟨-, htail⟩ | ⟨-, htail⟩
  · exact haccepts
  · exact absurd (congrArg Prod.fst htail) hopen
  · exact absurd (congrArg Prod.fst (htail rest)) hunexpected

/-- A number has a value. -/
theorem exists_read?_of_shape {c : Char} {rest : List Char}
    (hshape : (first c rest).shape = .number) :
    ∃ x, Numeral.read? (first c rest).text = some x :=
  Numeral.exists_read?_of_number (accepts_of_shape hshape (by decide) (by decide))

/-- A line break is a line feed and nothing else. -/
theorem text_of_lineBreak {c : Char} {rest : List Char}
    (hshape : (first c rest).shape = .lineBreak) : (first c rest).text = ['\n'] :=
  accepts_of_shape hshape (by decide) (by decide)

/-- Only a line break begins with a line feed. -/
theorem head_ne_of_shape_ne {c : Char} {rest : List Char}
    (hshape : (first c rest).shape ≠ .lineBreak) : c ≠ '\n' := by
  rintro rfl
  exact hshape rfl

/-- An unexpected character stands alone. -/
theorem text_of_unexpected {c : Char} {rest : List Char}
    (hshape : (first c rest).shape = .unexpected) : (first c rest).text = [c] := by
  rcases Lexeme.accepts_tail c rest with haccepts | ⟨-, htail⟩ | ⟨-, htail⟩
  · have hnone : Shape.unexpected.Accepts (c :: (Lexeme.tail c rest).2) := hshape ▸ haccepts
    exact hnone.elim
  · cases hshape.symm.trans (congrArg Prod.fst htail)
  · rw [first, htail rest]

/-- A string that is not closed takes the whole text. -/
theorem text_of_unterminated {c : Char} {rest : List Char}
    (hshape : (first c rest).shape = .unterminated) : (first c rest).text = c :: rest := by
  rcases Lexeme.accepts_tail c rest with haccepts | ⟨-, htail⟩ | ⟨-, htail⟩
  · have hnone : Shape.unterminated.Accepts (c :: (Lexeme.tail c rest).2) :=
      hshape ▸ haccepts
    exact hnone.elim
  · rw [first, htail]
  · cases hshape.symm.trans (congrArg Prod.fst (htail rest))

end Piece
end Lox
