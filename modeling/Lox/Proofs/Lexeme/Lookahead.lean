import Lox.Proofs.Lexeme.Significant

/-!
# How far a lexeme looks ahead

Whether a text goes on with a lexeme is seen from its first character, and from its first
two where a number without a fraction stands before a point.  So the pieces of a text stay as
they are where the text is continued, but for those at its end: two more characters settle
every piece, and one settles every piece but such a number.  A line feed settles everything
except an open string; it says no more than the end of the text does.

Main results:

- Theorem {lit}`goesOn_congr`: what a lexeme sees of the text that follows it.
- Theorem {lit}`Piece.exists_split_append`: a piece that is settled, and the pieces before
  it, stay as they are in every continuation of the text.
- Theorem {lit}`Piece.split_append_lineFeed`: a line feed separates the pieces of the texts
  on both sides of it.
-/

namespace Lox
namespace Lexeme

/-! ## What a lexeme sees -/

/-- The next characters that a lexeme takes. -/
def Shape.Takes : Shape → List Char → Char → Prop
  | .comment, _, c => c ≠ '\n'
  | .operator _, lexeme, c => (lexeme ∈ comparisons ∧ c = '=') ∨ (lexeme = ['/'] ∧ c = '/')
  | .unterminated, _, _ => True
  | .number, _, c => Digit c
  | .word, _, c => Letter c ∨ Digit c
  | _, _, _ => False

/-- A lexeme goes on with a character that it takes, and a number without a fraction goes on
with a fraction. -/
theorem goesOn_iff {shape : Shape} {lexeme rest : List Char} :
    shape.GoesOn lexeme rest ↔
      Begins (shape.Takes lexeme) rest ∨
        (shape = .number ∧ '.' ∉ lexeme ∧ BeginsFraction rest) := by
  cases shape <;> cases rest <;> simp [Shape.GoesOn, Shape.Takes]

/-- A line feed is taken by an open string only. -/
theorem not_takes_lineFeed {shape : Shape} (hopen : shape ≠ .unterminated)
    (lexeme : List Char) : ¬shape.Takes lexeme '\n' := by
  cases shape with
  | unterminated => exact absurd rfl hopen
  | number => exact (by decide : ¬Digit '\n')
  | word => exact (by decide : ¬(Letter '\n' ∨ Digit '\n'))
  | _ => simp [Shape.Takes]

/-- A lexeme sees the first character of the text that follows it.  Only a number without a
fraction sees whether a fraction follows. -/
theorem goesOn_congr {shape : Shape} {lexeme rest other : List Char}
    (hfirst : Begins (shape.Takes lexeme) rest ↔ Begins (shape.Takes lexeme) other)
    (hfraction : shape = .number → '.' ∉ lexeme →
      (BeginsFraction rest ↔ BeginsFraction other)) :
    shape.GoesOn lexeme rest ↔ shape.GoesOn lexeme other := by
  rw [goesOn_iff, goesOn_iff, hfirst]
  refine or_congr_right (and_congr_right fun hnumber => and_congr_right fun hpoint => ?_)
  exact hfraction hnumber hpoint

/-- The text that follows a lexeme shows whether the lexeme ends, however the text is
continued: it has two characters, or one that is no point behind a number without a
fraction. -/
def Settled (shape : Shape) (lexeme rest : List Char) : Prop :=
  2 ≤ rest.length ∨
    (rest.length = 1 ∧ ¬(shape = .number ∧ '.' ∉ lexeme ∧ rest = ['.']))

theorem beginsFraction_cons_iff (c : Char) (rest : List Char) :
    BeginsFraction (c :: rest) ↔ c = '.' ∧ Begins Digit rest := by
  constructor
  · rintro ⟨more, htext, hdigit⟩
    cases htext
    exact ⟨rfl, hdigit⟩
  · rintro ⟨rfl, hdigit⟩
    exact ⟨rest, rfl, hdigit⟩

/-- A settled lexeme sees the same in every continuation of the text. -/
theorem goesOn_append_iff {shape : Shape} {lexeme rest : List Char}
    (hsettled : Settled shape lexeme rest) (more : List Char) :
    shape.GoesOn lexeme (rest ++ more) ↔ shape.GoesOn lexeme rest := by
  cases rest with
  | nil => simp [Settled] at hsettled
  | cons c rest =>
      apply goesOn_congr
      · simp
      · intro hnumber hpoint
        rw [List.cons_append, beginsFraction_cons_iff, beginsFraction_cons_iff]
        apply and_congr_right
        intro hc
        cases rest with
        | nil => simp [Settled, hnumber, hpoint, hc] at hsettled
        | cons d rest => simp

/-- A lexeme sees no more in a line feed than in the end of the text. -/
theorem goesOn_append_lineFeed_iff {shape : Shape} (hopen : shape ≠ .unterminated)
    (lexeme rest more : List Char) :
    shape.GoesOn lexeme (rest ++ '\n' :: more) ↔ shape.GoesOn lexeme rest := by
  have hbegins (text : List Char) (p : Char → Prop) (hp : ¬p '\n') :
      Begins p (text ++ '\n' :: more) ↔ Begins p text := by
    cases text with
    | nil => simp [hp]
    | cons c text => simp
  apply goesOn_congr
  · exact hbegins rest _ (not_takes_lineFeed hopen lexeme)
  · intro _ _
    cases rest with
    | nil => simp [BeginsFraction]
    | cons c rest =>
        rw [List.cons_append, beginsFraction_cons_iff, beginsFraction_cons_iff,
          hbegins rest Digit (by decide)]

/-! ## What follows a lexeme that is found -/

/-- What is found is found again where it stands alone. -/
theorem tail_tail (c : Char) (rest : List Char) : tail c (tail c rest).2 = tail c rest := by
  rcases accepts_tail c rest with haccepts | ⟨rfl, hopen⟩ | ⟨-, hunexpected⟩
  · exact tail_of_accepts haccepts
  · simp only [hopen]
  · simp only [hunexpected]

end Lexeme

namespace Piece

/-- The first piece of a text stands alone as a piece. -/
theorem tail_text_first (c : Char) (rest : List Char) :
    Lexeme.tail c (Lexeme.tail c rest).2 = ((first c rest).shape, (Lexeme.tail c rest).2) :=
  Lexeme.tail_tail c rest

/-- The text behind the first piece does not go on with it. -/
theorem not_goesOn_first (c : Char) (rest : List Char) :
    ¬(first c rest).shape.GoesOn (first c rest).text
      ((c :: rest).drop (first c rest).text.length) := by
  have hrest : (Lexeme.tail c rest).2 ++
      (c :: rest).drop (first c rest).text.length = rest :=
    (List.cons.inj (text_first_append c rest)).2
  have hends := Lexeme.tail_append_iff (tail_text_first c rest)
    ((c :: rest).drop (first c rest).text.length)
  rw [hrest] at hends
  exact hends.1 rfl

/-- The first piece of a text stays as it is in front of another text that does not go on
with it. -/
theorem split_first_append {c : Char} {rest other : List Char}
    (hends : ¬(first c rest).shape.GoesOn (first c rest).text other) :
    split ((first c rest).text ++ other) = first c rest :: split other := by
  apply split_append
  exact (Lexeme.tail_append_iff (tail_text_first c rest) other).2 hends

/-! ## Continuations of a text -/

/-- Pieces have text. -/
theorem length_text_pos {text : List Char} {earlier later : List Piece} {piece : Piece}
    (hsplit : split text = earlier ++ piece :: later) : 0 < piece.text.length := by
  rcases first_of_split hsplit with ⟨c, rest, -, rfl⟩
  simp [first]

/-- A piece that is settled, and the pieces before it, stay as they are in every continuation
of the text. -/
theorem exists_split_append {text : List Char} {earlier later : List Piece} {piece : Piece}
    (hsplit : split text = earlier ++ piece :: later)
    (hsettled : Lexeme.Settled piece.shape piece.text (join later)) (more : List Char) :
    ∃ after, split (text ++ more) = earlier ++ piece :: after := by
  have hpiece := length_text_pos hsplit
  induction earlier generalizing text with
  | nil =>
      cases text with
      | nil => simp at hsplit
      | cons c rest =>
          rw [List.nil_append, split_cons, List.cons.injEq] at hsplit
          rcases hsplit with ⟨rfl, rfl⟩
          rw [join_split] at hsettled
          have hfirst := split_first_append
            (mt (Lexeme.goesOn_append_iff hsettled more).1 (not_goesOn_first c rest))
          rw [← List.append_assoc, text_first_append] at hfirst
          exact ⟨_, hfirst⟩
  | cons head earlier ih =>
      cases text with
      | nil => simp at hsplit
      | cons c rest =>
          rw [List.cons_append, split_cons, List.cons.injEq] at hsplit
          rcases hsplit with ⟨rfl, hsplit⟩
          -- The later piece and the character that settles it are two characters, which
          -- settle every piece before them.
          have hlength := congrArg (fun pieces => (join pieces).length) hsplit
          simp only [join_split, join_append, join_cons, List.length_append] at hlength
          have hrest : 1 ≤ (join later).length := by
            rcases hsettled with hlong | ⟨hone, -⟩ <;> omega
          have hhead : Lexeme.Settled (first c rest).shape (first c rest).text
              ((c :: rest).drop (first c rest).text.length) := Or.inl (by omega)
          have hfirst := split_first_append
            (mt (Lexeme.goesOn_append_iff hhead more).1 (not_goesOn_first c rest))
          rw [← List.append_assoc, text_first_append] at hfirst
          rcases ih hsplit with ⟨after, hafter⟩
          exact ⟨after, by rw [hfirst, hafter, List.cons_append]⟩

/-- A line feed separates the pieces of the texts on both sides of it, unless a string is
open before it. -/
theorem split_append_lineFeed {text : List Char}
    (hclosed : ∀ piece ∈ split text, piece.shape ≠ .unterminated) (more : List Char) :
    split (text ++ '\n' :: more) = split text ++ ⟨.lineBreak, ['\n']⟩ :: split more := by
  induction text using split_induction with
  | nil =>
      have hbreak : Lexeme.Shape.lineBreak.Accepts ['\n'] := rfl
      rw [split_nil, List.nil_append, List.nil_append]
      exact split_of_ends hbreak id
  | cons c rest ih =>
      rw [split_cons, List.forall_mem_cons] at hclosed
      have hfirst := split_first_append
        (mt (Lexeme.goesOn_append_lineFeed_iff hclosed.1 (first c rest).text
          ((c :: rest).drop (first c rest).text.length) more).1 (not_goesOn_first c rest))
      rw [← List.append_assoc, text_first_append] at hfirst
      rw [hfirst, split_cons, ih hclosed.2, List.cons_append]

end Piece
end Lox
