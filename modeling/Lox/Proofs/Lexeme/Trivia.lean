import Lox.Proofs.Lexeme.Lookahead

/-!
# Blanks and comments

Blanks and comments have no tokens and no faults.  A separator is made of blanks and of
comments that end with their lines; at the end of a text its last comment may be open.
Whatever stands in a comment, a separator adds nothing but its line feeds, and it leaves
alone what follows it.

Main results:

- Theorem {lit}`Separator.split_append`: the pieces of a separator end where it ends.
- Theorems {lit}`Separator.tokens_append` and {lit}`Separator.faults_append`: it only
  moves what follows to a later line.
- Theorem {lit}`not_goesOn_of_blank`: a lexeme that is no comment and no open string ends at a
  blank.
-/

namespace Lox
namespace Lexeme

/-! ## Trivia -/

/-- A class whose lexemes have no tokens and are no errors. -/
def Shape.IsTrivia : Shape → Prop
  | .blank => True
  | .lineBreak => True
  | .comment => True
  | _ => False

/-- A character that separates lexemes. -/
def Blank (c : Char) : Prop :=
  c = ' ' ∨ c = '\t' ∨ c = '\r' ∨ c = '\n'

instance (c : Char) : Decidable (Blank c) :=
  inferInstanceAs (Decidable (c = ' ' ∨ c = '\t' ∨ c = '\r' ∨ c = '\n'))

end Lexeme

namespace Piece

open Lexeme (Blank Begins)

theorem token?_of_trivia {piece : Piece} (htrivia : piece.shape.IsTrivia) (line : Nat) :
    piece.token? line = none := by
  rcases piece with ⟨shape, text⟩
  cases shape <;> first | rfl | exact htrivia.elim

theorem fault?_of_trivia {piece : Piece} (htrivia : piece.shape.IsTrivia) (line : Nat) :
    piece.fault? line = none := by
  rcases piece with ⟨shape, text⟩
  cases shape <;> first | rfl | exact htrivia.elim

/-- Blanks, line feeds and comments have no tokens. -/
theorem tokens_of_trivia {pieces : List Piece}
    (htrivia : ∀ piece ∈ pieces, piece.shape.IsTrivia) (line : Nat) :
    tokens line pieces = [] := by
  induction pieces generalizing line with
  | nil => rfl
  | cons piece more ih =>
      rw [List.forall_mem_cons] at htrivia
      rw [tokens, token?_of_trivia htrivia.1, ih htrivia.2]
      rfl

theorem faults_of_trivia {pieces : List Piece}
    (htrivia : ∀ piece ∈ pieces, piece.shape.IsTrivia) (line : Nat) :
    faults line pieces = [] := by
  induction pieces generalizing line with
  | nil => rfl
  | cons piece more ih =>
      rw [List.forall_mem_cons] at htrivia
      rw [faults, fault?_of_trivia htrivia.1, ih htrivia.2]
      rfl

/-- A blank is a piece of its own, whatever follows. -/
theorem exists_split_blank {c : Char} (hc : Blank c) :
    ∃ shape : Lexeme.Shape, shape.IsTrivia ∧
      ∀ rest, split (c :: rest) = ⟨shape, [c]⟩ :: split rest := by
  have hclass : ∃ shape : Lexeme.Shape, shape.IsTrivia ∧ shape.Accepts [c] ∧
      ∀ rest, ¬shape.GoesOn [c] rest := by
    rcases hc with rfl | rfl | rfl | rfl
    · exact ⟨.blank, trivial, Or.inl rfl, fun _ => id⟩
    · exact ⟨.blank, trivial, Or.inr (Or.inr rfl), fun _ => id⟩
    · exact ⟨.blank, trivial, Or.inr (Or.inl rfl), fun _ => id⟩
    · exact ⟨.lineBreak, trivial, rfl, fun _ => id⟩
  rcases hclass with ⟨shape, htrivia, haccepts, hends⟩
  exact ⟨shape, htrivia, fun rest => split_of_ends haccepts (hends rest)⟩

/-- A comment is a piece of its own if its line ends behind it. -/
theorem split_comment {body rest : List Char} (hbody : '\n' ∉ body)
    (hends : ¬Begins (· ≠ '\n') rest) :
    split ('/' :: '/' :: (body ++ rest)) =
      ⟨.comment, '/' :: '/' :: body⟩ :: split rest := by
  have haccepts : Lexeme.Shape.comment.Accepts ('/' :: '/' :: body) := ⟨body, rfl, hbody⟩
  exact split_of_ends haccepts hends

end Piece

namespace Lexeme

open Piece (split tokens faults)

/-! ## Separators -/

/-- Blanks and comments that end with their lines. -/
inductive Separator : List Char → Prop where
  | nil : Separator []
  | blank {c : Char} {rest : List Char} (hc : Blank c) (hrest : Separator rest) :
      Separator (c :: rest)
  | comment {body rest : List Char} (hbody : '\n' ∉ body) (hrest : Separator rest) :
      Separator ('/' :: '/' :: (body ++ '\n' :: rest))

/-- A separator at the end of a text, where the last comment may be open. -/
inductive Trailer : List Char → Prop where
  | closed {text : List Char} (htext : Separator text) : Trailer text
  | comment {text body : List Char} (htext : Separator text) (hbody : '\n' ∉ body) :
      Trailer (text ++ '/' :: '/' :: body)

/-- The pieces of a separator end where it ends, and none of them has a token. -/
theorem Separator.split_append {text : List Char} (hseparator : Separator text) :
    (∀ piece ∈ split text, piece.shape.IsTrivia) ∧
      ∀ rest, split (text ++ rest) = split text ++ split rest := by
  induction hseparator with
  | nil => simp
  | blank hc _ ih =>
      rcases ih with ⟨hmore, happend⟩
      rcases Piece.exists_split_blank hc with ⟨shape, htrivia, hsplit⟩
      rw [hsplit, List.forall_mem_cons]
      refine ⟨⟨htrivia, hmore⟩, fun rest => ?_⟩
      rw [List.cons_append, hsplit, happend, List.cons_append]
  | @comment body more hbody _ ih =>
      rcases ih with ⟨hmore, happend⟩
      have hends (after : List Char) : ¬Begins (· ≠ '\n') ('\n' :: after) := by simp
      have hbreak : Blank '\n' := by decide
      rcases Piece.exists_split_blank hbreak with ⟨shape, htrivia, hsplit⟩
      rw [Piece.split_comment hbody (hends more), hsplit, List.forall_mem_cons,
        List.forall_mem_cons]
      refine ⟨⟨trivial, htrivia, hmore⟩, fun rest => ?_⟩
      simp only [List.cons_append, List.append_assoc]
      rw [Piece.split_comment hbody (hends _), hsplit, happend]

/-- A separator only moves the tokens that follow it to a later line. -/
theorem Separator.tokens_append {text : List Char} (hseparator : Separator text)
    (line : Nat) (rest : List Char) :
    tokens line (split (text ++ rest)) = tokens (line + text.count '\n') (split rest) := by
  rcases hseparator.split_append with ⟨htrivia, happend⟩
  rw [happend, Piece.tokens_append, Piece.join_split, Piece.tokens_of_trivia htrivia,
    List.nil_append]

/-- Behind a separator the faults of a text are those of the text, on lower lines. -/
theorem Separator.faults_append {text : List Char} (hseparator : Separator text)
    (line : Nat) (rest : List Char) :
    faults line (split (text ++ rest)) = faults (line + text.count '\n') (split rest) := by
  rcases hseparator.split_append with ⟨htrivia, happend⟩
  rw [happend, Piece.faults_append, Piece.join_split, Piece.faults_of_trivia htrivia,
    List.nil_append]

/-- A text that ends in a separator has nothing else behind its last token. -/
theorem Trailer.isTrivia {text : List Char} (htrailer : Trailer text) :
    ∀ piece ∈ split text, piece.shape.IsTrivia := by
  cases htrailer with
  | closed htext => exact htext.split_append.1
  | @comment before body htext hbody =>
      rcases htext.split_append with ⟨hbefore, happend⟩
      have hcomment := Piece.split_comment hbody (not_begins_nil (· ≠ '\n'))
      rw [List.append_nil, Piece.split_nil] at hcomment
      rw [happend, hcomment, List.forall_mem_append, List.forall_mem_singleton]
      exact ⟨hbefore, trivial⟩

/-! ## Lexemes in front of blanks -/

/-- A blank is taken by a comment and by an open string only. -/
theorem not_takes_of_blank {shape : Shape} (hcomment : shape ≠ .comment)
    (hopen : shape ≠ .unterminated) (lexeme : List Char) {c : Char} (hc : Blank c) :
    ¬shape.Takes lexeme c := by
  cases shape with
  | comment => exact absurd rfl hcomment
  | unterminated => exact absurd rfl hopen
  | operator kind => rcases hc with rfl | rfl | rfl | rfl <;> simp [Shape.Takes]
  | number =>
      have hdigit : ¬Digit c := by
        rcases hc with rfl | rfl | rfl | rfl <;> decide
      exact hdigit
  | word =>
      have hword : ¬(Letter c ∨ Digit c) := by
        rcases hc with rfl | rfl | rfl | rfl <;> decide
      exact hword
  | _ => exact id

/-- A lexeme that is no comment and no open string ends at a blank. -/
theorem not_goesOn_of_blank {shape : Shape} (hcomment : shape ≠ .comment)
    (hopen : shape ≠ .unterminated) (lexeme : List Char) {rest : List Char}
    (hrest : Begins Blank rest) : ¬shape.GoesOn lexeme rest := by
  rcases hrest with ⟨c, rest, rfl, hc⟩
  rw [goesOn_iff, begins_cons, beginsFraction_cons_iff]
  rintro (htakes | ⟨-, -, hpoint, -⟩)
  · exact not_takes_of_blank hcomment hopen lexeme hc htakes
  · subst hpoint
    exact absurd hc (by decide)

/-- A significant lexeme ends at a blank. -/
theorem Significant.not_goesOn_of_blank (x : Significant) {rest : List Char}
    (hrest : Begins Blank rest) : ¬x.shape.GoesOn x.text rest := by
  have htoken := x.hasToken
  apply Lexeme.not_goesOn_of_blank _ _ x.text hrest
  · rintro hshape
    rw [hshape] at htoken
    exact htoken
  · rintro hshape
    rw [hshape] at htoken
    exact htoken

end Lexeme
end Lox
