import Lox.Proofs.Lexeme.Continuation
import Lox.Proofs.Lexeme.Meaning

/-!
# Significant lexemes

A lexeme is significant if it has a token: an operator, a string, a number or a word.  A
scan of such a lexeme alone gives that token, and its first character tells much of its
class.

Main results:

- Theorem {lit}`Significant.exists_token`: a significant lexeme has one token on each line.
- Theorem {lit}`Significant.split_append`: it is a piece of its own in front of a text that
  does not go on with it.
- Theorems {lit}`Significant.begins_digit_iff`, {lit}`Significant.begins_word_iff`,
  {lit}`Significant.begins_equals_iff`, {lit}`Significant.begins_slash_iff` and
  {lit}`Significant.begins_point_iff`: the lexemes with a given first character.
-/

namespace Lox
namespace Lexeme

/-- A lexeme of a class with tokens. -/
structure Significant where
  text : List Char
  shape : Shape
  hasToken : shape.HasToken
  accepts : shape.Accepts text

/-- No lexeme goes on where the text ends. -/
theorem not_goesOn_nil (shape : Shape) (lexeme : List Char) : ¬shape.GoesOn lexeme [] := by
  cases shape <;> simp [Shape.GoesOn, BeginsFraction]

/-- A number begins with a digit. -/
theorem digit_of_number {c : Char} {rest : List Char}
    (haccepts : Shape.number.Accepts (c :: rest)) : Digit c := by
  rcases haccepts with ⟨-, hdigits⟩ | ⟨whole, part, htext, ⟨hne, hwhole⟩, -⟩
  · exact hdigits c List.mem_cons_self
  · cases whole with
    | nil => exact absurd rfl hne
    | cons d whole =>
        cases htext
        exact hwhole c List.mem_cons_self

/-- Only a digit opens a number. -/
theorem isDigit_of_tail {c : Char} {rest : List Char} (hnumber : (tail c rest).1 = .number) :
    isDigit c = true := by
  rcases accepts_tail c rest with haccepts | ⟨-, hopen⟩ | ⟨-, hunexpected⟩
  · rw [hnumber] at haccepts
    exact (digit_of_number haccepts).isDigit
  · rw [hopen] at hnumber
    cases hnumber
  · rw [hunexpected] at hnumber
    cases hnumber

namespace Significant

/-! ## Pieces and tokens -/

/-- The piece of a significant lexeme. -/
def piece (x : Significant) : Piece :=
  ⟨x.shape, x.text⟩

/-- The text that significant lexemes make up without anything between them. -/
def join (xs : List Significant) : List Char :=
  xs.flatMap text

@[simp]
theorem join_cons (x : Significant) (xs : List Significant) :
    join (x :: xs) = x.text ++ join xs :=
  List.flatMap_cons

theorem text_ne_nil (x : Significant) : x.text ≠ [] :=
  x.accepts.ne_nil

/-- A significant lexeme has one token on each line. -/
theorem exists_token (x : Significant) :
    ∃ kind literal, ∀ line,
      x.piece.token? line = some ⟨kind, String.ofList x.text, literal, line⟩ := by
  have hmeaning : ∃ kind literal, x.piece.meaning? = some (kind, literal) := by
    rcases x with ⟨text, shape, hasToken, haccepts⟩
    cases shape with
    | number =>
        rcases Numeral.exists_read?_of_number haccepts with ⟨value, hread⟩
        exact ⟨.number, .number value, by simp [piece, Piece.meaning?, hread]⟩
    | operator kind => exact ⟨kind, .nil, rfl⟩
    | string => exact ⟨.string, _, rfl⟩
    | word => exact ⟨_, .nil, rfl⟩
    | _ => exact hasToken.elim
  rcases hmeaning with ⟨kind, literal, hmeaning⟩
  refine ⟨kind, literal, fun line => ?_⟩
  rw [Piece.token?, hmeaning]
  rfl

/-- A significant lexeme is no error. -/
theorem fault?_piece (x : Significant) (line : Nat) : x.piece.fault? line = none := by
  rcases x with ⟨text, shape, hasToken, haccepts⟩
  cases shape <;> first | rfl | exact hasToken.elim

/-- A significant lexeme is a piece of its own in front of a text that does not go on with
it. -/
theorem split_append {x : Significant} {rest : List Char}
    (hends : ¬x.shape.GoesOn x.text rest) :
    Piece.split (x.text ++ rest) = x.piece :: Piece.split rest :=
  Piece.split_of_ends x.accepts hends

/-- A significant lexeme that stands alone is one piece. -/
theorem split_text (x : Significant) : Piece.split x.text = [x.piece] := by
  have hsplit := x.split_append (not_goesOn_nil x.shape x.text)
  rwa [List.append_nil, Piece.split_nil] at hsplit

/-! ## First characters -/

/-- The first character of a significant lexeme opens it. -/
theorem exists_cons (x : Significant) :
    ∃ c body, x.text = c :: body ∧ (tail c body).1 = x.shape ∧ (tail c body).2 = body := by
  have haccepts := x.accepts
  cases htext : x.text with
  | nil => exact absurd htext x.text_ne_nil
  | cons c body =>
      rw [htext] at haccepts
      have htail := tail_of_accepts haccepts
      exact ⟨c, body, rfl, congrArg Prod.fst htail, congrArg Prod.snd htail⟩

/-- The significant lexemes that begin with a digit are the numbers. -/
theorem begins_digit_iff (x : Significant) : Begins Digit x.text ↔ x.shape = .number := by
  rcases x.exists_cons with ⟨c, body, htext, hshape, -⟩
  rw [htext, begins_cons]
  constructor
  · intro hdigit
    rw [← hshape, tail_of_digit hdigit.isDigit]
  · intro hnumber
    have haccepts := x.accepts
    rw [htext, hnumber] at haccepts
    exact digit_of_number haccepts

theorem begins_word_iff (x : Significant) :
    Begins (fun c => Letter c ∨ Digit c) x.text ↔ x.shape = .word ∨ x.shape = .number := by
  rcases x.exists_cons with ⟨c, body, htext, hshape, -⟩
  have hdigit := x.begins_digit_iff
  rw [htext, begins_cons] at hdigit
  rw [htext, begins_cons, hdigit]
  refine or_congr_left ?_
  constructor
  · intro hletter
    rw [← hshape, tail_of_letter hletter.isLetter]
  · intro hword
    have haccepts := x.accepts
    rw [htext, hword] at haccepts
    rcases haccepts with ⟨d, more, heq, hletter, -⟩
    cases heq
    exact hletter

/-- Only two lexemes begin with an equals sign. -/
theorem begins_equals_iff (x : Significant) :
    Begins (· = '=') x.text ↔ x.text ∈ [['='], ['=', '=']] := by
  rcases x.exists_cons with ⟨c, body, htext, -, hbody⟩
  rw [htext, begins_cons]
  constructor
  · rintro rfl
    rw [tail_of_comparison (rfl : comparison? '=' = some (.equal, .equalEqual))] at hbody
    rw [← hbody]
    by_cases hequal : Begins (· = '=') body
    · rcases hequal with ⟨_, more, rfl, rfl⟩
      exact List.mem_cons_of_mem _ List.mem_cons_self
    · rw [comparisonTail_of_not_begins hequal]
      exact List.mem_cons_self
  · intro hmem
    simp only [List.mem_cons, List.cons.injEq, List.not_mem_nil, or_false] at hmem
    rcases hmem with ⟨hc, -⟩ | ⟨hc, -⟩
    · exact hc
    · exact hc

/-- A significant lexeme that begins with a slash is one. -/
theorem begins_slash_iff (x : Significant) : Begins (· = '/') x.text ↔ x.text = ['/'] := by
  rcases x.exists_cons with ⟨c, body, htext, hshape, hbody⟩
  rw [htext, begins_cons]
  constructor
  · rintro rfl
    by_cases hcomment : Begins (· = '/') body
    · -- Two slashes would make it a comment.
      rcases hcomment with ⟨_, more, rfl, rfl⟩
      have htoken := x.hasToken
      rw [← hshape] at htoken
      exact htoken.elim
    · have hnone : (slashTail body).2 = body := hbody
      rw [slashTail_of_not_begins hcomment] at hnone
      rw [← hnone]
  · intro heq
    exact (List.cons.inj heq).1

/-- The point alone begins with a point. -/
theorem begins_point_iff (x : Significant) : Begins (· = '.') x.text ↔ x.text = ['.'] := by
  rcases x.exists_cons with ⟨c, body, htext, -, hbody⟩
  rw [htext, begins_cons]
  constructor
  · rintro rfl
    have hpoint : mark? '.' = some .dot := by decide
    rw [tail_of_mark hpoint] at hbody
    rw [← hbody]
  · intro heq
    exact (List.cons.inj heq).1

end Significant
end Lexeme
end Lox
