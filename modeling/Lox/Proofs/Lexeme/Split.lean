import Lox.Proofs.Lexeme.Piece

/-!
# The pieces of a text

A text splits into pieces: its first piece, and the pieces of the text behind that.  The
pieces and the line on which the text begins decide all of its tokens and faults.

Main results:

- Theorem {lit}`join_split`: the pieces of a text make it up again.
- Theorem {lit}`split_append`: a lexeme that ends where another text begins stands before
  the pieces of that text.
- Theorem {lit}`drop_of_split`: the pieces behind a place of a text are the pieces of the
  text from there on.
- Theorems {lit}`tokens_append` and {lit}`faults_append`: what later pieces add depends on
  the earlier ones through their line feeds only.
-/

namespace Lox
namespace Piece

open Lexeme (Shape)

/-! ## Splitting and joining -/

/-- The pieces of a text, in order. -/
def split : List Char → List Piece
  | [] => []
  | c :: rest => first c rest :: split (rest.drop (Lexeme.tail c rest).2.length)
termination_by text => text.length
decreasing_by
  simp only [List.length_drop, List.length_cons]
  omega

/-- The text that pieces make up. -/
def join (pieces : List Piece) : List Char :=
  pieces.flatMap text

@[simp]
theorem split_nil : split [] = [] := by
  rw [split]

theorem split_cons (c : Char) (rest : List Char) :
    split (c :: rest) =
      first c rest :: split ((c :: rest).drop (first c rest).text.length) := by
  rw [split]
  rfl

@[simp]
theorem join_nil : join [] = [] :=
  rfl

@[simp]
theorem join_cons (piece : Piece) (more : List Piece) :
    join (piece :: more) = piece.text ++ join more :=
  List.flatMap_cons

@[simp]
theorem join_append (earlier later : List Piece) :
    join (earlier ++ later) = join earlier ++ join later :=
  List.flatMap_append

/-- What holds of the empty text, and of a text if it holds behind its first piece, holds
of every text. -/
@[elab_as_elim]
theorem split_induction {motive : List Char → Prop} (nil : motive [])
    (cons : ∀ (c : Char) (rest : List Char),
      motive ((c :: rest).drop (first c rest).text.length) → motive (c :: rest))
    (text : List Char) : motive text := by
  cases text with
  | nil => exact nil
  | cons c rest =>
      apply cons
      exact split_induction nil cons _
termination_by text.length
decreasing_by
  simp only [first, List.length_cons, List.drop_succ_cons, List.length_drop]
  omega

/-- The first piece of a text and what follows it. -/
theorem text_first_append (c : Char) (rest : List Char) :
    (first c rest).text ++ (c :: rest).drop (first c rest).text.length = c :: rest := by
  rcases text_first_isPrefix c rest with ⟨after, hafter⟩
  conv => lhs; rw [← hafter, List.drop_left]
  exact hafter

/-- The pieces of a text make it up again. -/
@[simp]
theorem join_split (text : List Char) : join (split text) = text := by
  induction text using split_induction with
  | nil => rw [split_nil, join_nil]
  | cons c rest ih => rw [split_cons, join_cons, ih, text_first_append]

/-- A lexeme that ends where another text begins stands before the pieces of that
text. -/
theorem split_append {shape : Shape} {c : Char} {body rest : List Char}
    (htail : Lexeme.tail c (body ++ rest) = (shape, body)) :
    split (c :: body ++ rest) = ⟨shape, c :: body⟩ :: split rest := by
  have hfirst : first c (body ++ rest) = ⟨shape, c :: body⟩ := by
    rw [first, htail]
  rw [List.cons_append, split_cons, hfirst, ← List.cons_append, List.drop_left]

/-- A string that is not closed is the last piece. -/
theorem split_of_unterminated {c : Char} {rest : List Char}
    (hshape : (first c rest).shape = .unterminated) :
    split (c :: rest) = [first c rest] := by
  rw [split_cons, text_of_unterminated hshape, List.drop_length, split_nil]

/-- The pieces behind a place of a text are the pieces of the text from there on. -/
theorem drop_of_split {text : List Char} {earlier later : List Piece}
    (hsplit : split text = earlier ++ later) :
    later = split (text.drop (join earlier).length) := by
  induction earlier generalizing text with
  | nil => exact hsplit.symm
  | cons piece earlier ih =>
      cases text with
      | nil =>
          rw [split_nil] at hsplit
          cases hsplit
      | cons c rest =>
          rw [split_cons, List.cons_append, List.cons.injEq] at hsplit
          rcases hsplit with ⟨rfl, hsplit⟩
          rw [ih hsplit, List.drop_drop, join_cons, List.length_append]

/-- The text before a place and the text behind it. -/
theorem append_of_split {text : List Char} {earlier later : List Piece}
    (hsplit : split text = earlier ++ later) :
    text.take (join earlier).length = join earlier ∧
      text.drop (join earlier).length = join later := by
  have hjoin : text = join earlier ++ join later := by
    rw [← join_append, ← hsplit, join_split]
  rw [hjoin]
  exact ⟨List.take_left, List.drop_left⟩

/-- Every piece is the first one of the text that the earlier pieces leave. -/
theorem first_of_split {text : List Char} {earlier later : List Piece} {piece : Piece}
    (hsplit : split text = earlier ++ piece :: later) :
    ∃ c rest, text.drop (join earlier).length = c :: rest ∧ piece = first c rest := by
  have hdrop := drop_of_split hsplit
  cases hleft : text.drop (join earlier).length with
  | nil =>
      rw [hleft, split_nil] at hdrop
      cases hdrop
  | cons c rest =>
      rw [hleft, split_cons] at hdrop
      exact ⟨c, rest, rfl, (List.cons.inj hdrop).1⟩

/-! ## What pieces add -/

/-- The tokens of pieces that begin on the given line. -/
def tokens (line : Nat) : List Piece → List Token
  | [] => []
  | piece :: more =>
      (piece.token? (line + piece.text.count '\n')).toList ++
        tokens (line + piece.text.count '\n') more

/-- The faults of pieces that begin on the given line. -/
def faults (line : Nat) : List Piece → List Fault
  | [] => []
  | piece :: more =>
      (piece.fault? line).toList ++ faults (line + piece.text.count '\n') more

/-- Later pieces begin on the line on which the earlier ones end. -/
theorem tokens_append (line : Nat) (earlier later : List Piece) :
    tokens line (earlier ++ later) =
      tokens line earlier ++ tokens (line + (join earlier).count '\n') later := by
  induction earlier generalizing line with
  | nil => rfl
  | cons piece earlier ih =>
      simp only [List.cons_append, tokens, ih, join_cons, List.count_append,
        List.append_assoc, Nat.add_assoc]

/-- The faults of later pieces are counted from the line on which these begin. -/
theorem faults_append (line : Nat) (earlier later : List Piece) :
    faults line (earlier ++ later) =
      faults line earlier ++ faults (line + (join earlier).count '\n') later := by
  induction earlier generalizing line with
  | nil => rfl
  | cons piece earlier ih =>
      simp only [List.cons_append, faults, ih, join_cons, List.count_append,
        List.append_assoc, Nat.add_assoc]

/-- A token bears the text of its piece and the line that it is given. -/
theorem of_token? {piece : Piece} {line : Nat} {token : Token}
    (htoken : piece.token? line = some token) :
    token.lexeme = String.ofList piece.text ∧ token.line = line := by
  rcases Option.map_eq_some_iff.1 htoken with ⟨meaning, -, rfl⟩
  exact ⟨rfl, rfl⟩

/-- Every token comes from a piece, and the tokens before it from the pieces before
that. -/
theorem exists_piece_of_tokens {line : Nat} {pieces : List Piece} {before : List Token}
    {token : Token} {after : List Token}
    (htokens : tokens line pieces = before ++ token :: after) :
    ∃ earlier piece later, pieces = earlier ++ piece :: later ∧
      tokens line earlier = before ∧
      piece.token? (line + (join earlier).count '\n' + piece.text.count '\n') =
        some token := by
  induction pieces generalizing line before with
  | nil =>
      cases before <;> cases htokens
  | cons piece more ih =>
      cases hpiece : piece.token? (line + piece.text.count '\n') with
      | none =>
          simp only [tokens, hpiece, Option.toList_none, List.nil_append] at htokens
          rcases ih htokens with ⟨earlier, other, later, rfl, hearlier, hother⟩
          refine ⟨piece :: earlier, other, later, rfl, ?_, ?_⟩
          · simp only [tokens, hpiece, Option.toList_none, List.nil_append, hearlier]
          · simpa [Nat.add_assoc] using hother
      | some head =>
          simp only [tokens, hpiece, Option.toList_some, List.singleton_append] at htokens
          cases before with
          | nil =>
              rw [List.nil_append, List.cons.injEq] at htokens
              rcases htokens with ⟨rfl, -⟩
              exact ⟨[], piece, more, rfl, rfl, by simpa using hpiece⟩
          | cons _ before =>
              rw [List.cons_append, List.cons.injEq] at htokens
              rcases htokens with ⟨rfl, htokens⟩
              rcases ih htokens with ⟨earlier, other, later, rfl, hearlier, hother⟩
              refine ⟨piece :: earlier, other, later, rfl, ?_, ?_⟩
              · simp only [tokens, hpiece, Option.toList_some, List.singleton_append,
                  hearlier]
              · simpa [Nat.add_assoc] using hother

end Piece
end Lox
