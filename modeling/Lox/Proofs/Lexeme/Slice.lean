import Lox.Proofs.Lexeme.Split

/-!
# Slices and their places

Longest match cuts a slice off a text, and goes on with what is left.  So every place of a
text lies in one slice of a class, whether it is a lexeme or an error.  A character that
lies in no string and no comment is an error only if no lexeme starts with it.

Main results:

- Theorem {lit}`exists_sliceAt_of_lt`: every place of a text lies in a slice.
- Theorem {lit}`SliceAt.unique`: it lies in one slice only.
- Theorem {lit}`stray_iff`: the characters outside of strings and comments that start no
  lexeme are those that the scanner does not expect.
- Theorem {lit}`splits_iff`: a text splits into lexemes if no slice of it is an error.
-/

namespace Lox
namespace Lexeme

/-! ## Slices -/

/-- The text has a slice of the given class at the given place. -/
inductive SliceAt : List Char → Nat → Shape → List Char → Prop where
  | first {text slice : List Char} {shape : Shape} (hcut : Cut shape text slice) :
      SliceAt text 0 shape slice
  | later {text slice other : List Char} {shape later : Shape} {place : Nat}
      (hcut : Cut shape text slice)
      (hlater : SliceAt (text.drop slice.length) place later other) :
      SliceAt text (slice.length + place) later other

/-- Nothing is cut off the empty text. -/
theorem not_cut_nil (shape : Shape) (slice : List Char) : ¬Cut shape [] slice := by
  intro hcut
  cases hcut with
  | lexeme haccepts hbegins => exact haccepts.ne_nil (List.prefix_nil.1 hbegins)

theorem not_sliceAt_nil (place : Nat) (shape : Shape) (slice : List Char) :
    ¬SliceAt [] place shape slice := by
  intro hslice
  cases hslice with
  | first hcut => exact not_cut_nil _ _ hcut
  | later hcut => exact not_cut_nil _ _ hcut

/-- What is cut off a text is its first piece. -/
theorem Cut.eq_first {c : Char} {rest slice : List Char} {shape : Shape}
    (hcut : Cut shape (c :: rest) slice) :
    shape = (Piece.first c rest).shape ∧ slice = (Piece.first c rest).text :=
  cut_unique hcut (Piece.cut_first c rest)

/-- The first piece of a text is its slice at the beginning, and the other slices are those
of what follows it. -/
theorem sliceAt_cons_iff {c : Char} {rest slice : List Char} {place : Nat} {shape : Shape} :
    SliceAt (c :: rest) place shape slice ↔
      (place = 0 ∧ shape = (Piece.first c rest).shape ∧ slice = (Piece.first c rest).text) ∨
        ∃ offset, place = (Piece.first c rest).text.length + offset ∧
          SliceAt ((c :: rest).drop (Piece.first c rest).text.length) offset shape slice := by
  constructor
  · intro hslice
    cases hslice with
    | first hcut => exact Or.inl ⟨rfl, hcut.eq_first⟩
    | later hcut hlater =>
        rw [hcut.eq_first.2] at hlater ⊢
        exact Or.inr ⟨_, rfl, hlater⟩
  · rintro (⟨rfl, rfl, rfl⟩ | ⟨offset, rfl, hlater⟩)
    · exact .first (Piece.cut_first c rest)
    · exact .later (Piece.cut_first c rest) hlater

/-- A slice is cut off the text from its place on. -/
theorem SliceAt.cut {text slice : List Char} {place : Nat} {shape : Shape}
    (hslice : SliceAt text place shape slice) : Cut shape (text.drop place) slice := by
  induction hslice with
  | first hcut => exact hcut
  | later hcut hlater ih =>
      rw [List.drop_drop] at ih
      exact ih

/-- The slice at a place is the first piece of the text from there on. -/
theorem SliceAt.exists_first {text slice : List Char} {place : Nat} {shape : Shape}
    (hslice : SliceAt text place shape slice) :
    ∃ c rest, text.drop place = c :: rest ∧ shape = (Piece.first c rest).shape ∧
      slice = (Piece.first c rest).text := by
  have hcut := hslice.cut
  cases hleft : text.drop place with
  | nil =>
      rw [hleft] at hcut
      exact (not_cut_nil _ _ hcut).elim
  | cons c rest =>
      rw [hleft] at hcut
      exact ⟨c, rest, rfl, hcut.eq_first⟩

/-- The text goes on from a place in a slice with a character of that slice. -/
theorem SliceAt.exists_mem {text slice : List Char} {start place : Nat} {shape : Shape}
    (hslice : SliceAt text start shape slice) (hle : start ≤ place)
    (hend : place < start + slice.length) : ∃ c ∈ slice, [c] <+: text.drop place := by
  rcases hslice.exists_first with ⟨first, rest, hleft, -, rfl⟩
  rcases Piece.text_first_isPrefix first rest with ⟨after, hafter⟩
  have hdrop : text.drop place =
      (Piece.first first rest).text.drop (place - start) ++ after := by
    have hplace : place = start + (place - start) := by omega
    rw [hplace, ← List.drop_drop, hleft, ← hafter, List.drop_append_of_le_length (by omega),
      Nat.add_sub_cancel_left]
  cases hpart : (Piece.first first rest).text.drop (place - start) with
  | nil =>
      have hlength := List.drop_eq_nil_iff.1 hpart
      omega
  | cons c more =>
      refine ⟨c, List.mem_of_mem_drop (hpart ▸ List.mem_cons_self), more ++ after, ?_⟩
      rw [hdrop, hpart]
      rfl

/-- Every place of a text lies in a slice. -/
theorem exists_sliceAt_of_lt {text : List Char} {place : Nat} (hlt : place < text.length) :
    ∃ start shape slice, SliceAt text start shape slice ∧
      start ≤ place ∧ place < start + slice.length := by
  induction text using Piece.split_induction generalizing place with
  | nil => cases hlt
  | cons c rest ih =>
      by_cases hfirst : place < (Piece.first c rest).text.length
      · refine ⟨0, _, _, .first (Piece.cut_first c rest), Nat.zero_le _, ?_⟩
        rwa [Nat.zero_add]
      · have hlater : place - (Piece.first c rest).text.length <
            ((c :: rest).drop (Piece.first c rest).text.length).length := by
          rw [List.length_drop]
          omega
        rcases ih hlater with ⟨start, shape, slice, hslice, hle, hend⟩
        refine ⟨_, shape, slice, .later (Piece.cut_first c rest) hslice, ?_, ?_⟩
        · omega
        · omega

/-- A place lies in one slice only. -/
theorem SliceAt.unique {text slice other : List Char} {start start' place : Nat}
    {shape shape' : Shape} (hslice : SliceAt text start shape slice)
    (hother : SliceAt text start' shape' other) (hle : start ≤ place)
    (hend : place < start + slice.length) (hle' : start' ≤ place)
    (hend' : place < start' + other.length) :
    start = start' ∧ shape = shape' ∧ slice = other := by
  induction text using Piece.split_induction generalizing start start' place with
  | nil => exact (not_sliceAt_nil _ _ _ hslice).elim
  | cons c rest ih =>
      rcases sliceAt_cons_iff.1 hslice with ⟨rfl, rfl, rfl⟩ | ⟨offset, rfl, hlater⟩
      · rcases sliceAt_cons_iff.1 hother with ⟨rfl, rfl, rfl⟩ | ⟨offset', rfl, -⟩
        · exact ⟨rfl, rfl, rfl⟩
        · omega
      · rcases sliceAt_cons_iff.1 hother with ⟨rfl, rfl, rfl⟩ | ⟨offset', rfl, hlater'⟩
        · omega
        · have hfrom : offset ≤ place - (Piece.first c rest).text.length := by omega
          have hfrom' : offset' ≤ place - (Piece.first c rest).text.length := by omega
          have hsame := ih hlater hlater' hfrom (by omega) hfrom' (by omega)
          exact ⟨congrArg _ hsame.1, hsame.2⟩

/-! ## Characters outside of strings and comments -/

/-- The classes of slices whose characters may be any. -/
def Shape.Encloses : Shape → Prop
  | .comment => True
  | .string => True
  | .unterminated => True
  | _ => False

/-- The place lies in a string, closed or not, or in a comment. -/
def Enclosed (text : List Char) (place : Nat) : Prop :=
  ∃ start shape slice, SliceAt text start shape slice ∧ shape.Encloses ∧
    start ≤ place ∧ place < start + slice.length

/-- The character at the place stands outside of strings and comments, and starts no
lexeme. -/
def Stray (text : List Char) (place : Nat) : Prop :=
  place < text.length ∧ ¬Enclosed text place ∧ NoLexeme (text.drop place)

theorem isLexeme_of_digit {c : Char} (hdigit : Digit c) : IsLexeme [c] := by
  refine ⟨.number, Or.inl ⟨List.cons_ne_nil _ _, ?_⟩⟩
  intro d hd
  rwa [List.mem_singleton.1 hd]

theorem isLexeme_of_letter {c : Char} (hletter : Letter c) : IsLexeme [c] :=
  ⟨.word, c, [], rfl, hletter, fun _ hd => absurd hd List.not_mem_nil⟩

/-- Each character of a lexeme that is no string and no comment is a lexeme. -/
theorem Shape.Accepts.isLexeme_of_mem {shape : Shape} {text : List Char}
    (haccepts : shape.Accepts text) (hplain : ¬shape.Encloses) {c : Char} (hc : c ∈ text) :
    IsLexeme [c] := by
  cases shape with
  | blank =>
      rcases haccepts with rfl | rfl | rfl <;> rw [List.mem_singleton.1 hc]
      · exact ⟨.blank, Or.inl rfl⟩
      · exact ⟨.blank, Or.inr (Or.inl rfl)⟩
      · exact ⟨.blank, Or.inr (Or.inr rfl)⟩
  | lineBreak =>
      cases haccepts
      rw [List.mem_singleton.1 hc]
      exact ⟨.lineBreak, rfl⟩
  | operator kind =>
      have hall : ∀ operator ∈ operators,
          operator.1.all (fun d => [d] ∈ operators.map Prod.fst) = true := by decide
      have hmem := List.all_eq_true.1 (hall _ haccepts) c hc
      rcases List.mem_map.1 (of_decide_eq_true hmem) with ⟨operator, hmem, htext⟩
      exact ⟨.operator operator.2, htext ▸ hmem⟩
  | number =>
      rcases haccepts with ⟨-, hdigits⟩ | ⟨whole, part, rfl, ⟨-, hwhole⟩, ⟨-, hpart⟩⟩
      · exact isLexeme_of_digit (hdigits c hc)
      · rcases List.mem_append.1 hc with hc | hc
        · exact isLexeme_of_digit (hwhole c hc)
        · rcases List.mem_cons.1 hc with rfl | hc
          · exact ⟨.operator .dot, operator_of_mark? rfl⟩
          · exact isLexeme_of_digit (hpart c hc)
  | word =>
      rcases haccepts with ⟨first, rest, rfl, hfirst, hrest⟩
      rcases List.mem_cons.1 hc with rfl | hc
      · exact isLexeme_of_letter hfirst
      · rcases hrest c hc with hletter | hdigit
        · exact isLexeme_of_letter hletter
        · exact isLexeme_of_digit hdigit
  | comment => exact absurd trivial hplain
  | string => exact absurd trivial hplain
  | unterminated => exact haccepts.elim
  | unexpected => exact haccepts.elim

/-- A slice of unexpected characters begins with no lexeme. -/
theorem Cut.noLexeme_of_unexpected {text slice : List Char}
    (hcut : Cut .unexpected text slice) : slice.length = 1 ∧ NoLexeme text := by
  cases hcut with
  | lexeme haccepts => exact haccepts.elim
  | unexpected hquote hnone => exact ⟨rfl, hnone⟩

/-- The stray characters are those that the scanner does not expect. -/
theorem stray_iff {text : List Char} {place : Nat} :
    Stray text place ↔ ∃ slice, SliceAt text place .unexpected slice := by
  constructor
  · rintro ⟨hlt, houtside, hnone⟩
    rcases exists_sliceAt_of_lt hlt with ⟨start, shape, slice, hslice, hle, hend⟩
    have hplain : ¬shape.Encloses := by
      intro hencloses
      exact houtside ⟨start, shape, slice, hslice, hencloses, hle, hend⟩
    rcases hslice.exists_first with ⟨c, rest, hleft, rfl, rfl⟩
    by_cases hunexpected : (Piece.first c rest).shape = .unexpected
    · have hlength := (hunexpected ▸ hslice.cut).noLexeme_of_unexpected.1
      have hplace : place = start := by omega
      exact ⟨_, hplace ▸ hunexpected ▸ hslice⟩
    · exfalso
      have hopen : (Piece.first c rest).shape ≠ .unterminated := by
        intro hshape
        rw [hshape] at hplain
        exact hplain trivial
      have haccepts := Piece.accepts_of_shape rfl hopen hunexpected
      -- The character of the place is in the lexeme, so it is a lexeme by itself.
      rcases hslice.exists_mem hle hend with ⟨d, hmem, hbegins⟩
      exact hnone [d] hbegins (haccepts.isLexeme_of_mem hplain hmem)
  · rintro ⟨slice, hslice⟩
    rcases hslice.cut.noLexeme_of_unexpected with ⟨hlength, hnone⟩
    refine ⟨?_, ?_, hnone⟩
    · rcases hslice.exists_first with ⟨c, rest, hleft, -, -⟩
      have hlength := congrArg List.length hleft
      rw [List.length_drop, List.length_cons] at hlength
      omega
    · rintro ⟨start, shape, other, hother, hencloses, hle, hend⟩
      have hsame := hslice.unique hother (Nat.le_refl place) (by omega) hle hend
      rw [← hsame.2.1] at hencloses
      exact hencloses

/-! ## Texts without errors -/

/-- Longest match splits the text into lexemes and nothing else. -/
inductive Splits : List Char → Prop where
  | done : Splits []
  | lexeme {text slice : List Char} {shape : Shape} (haccepts : shape.Accepts slice)
      (hcut : Cut shape text slice) (hrest : Splits (text.drop slice.length)) : Splits text

/-- A text splits into lexemes exactly if each slice of it has the form that its shape asks for. -/
theorem splits_iff_accepts {text : List Char} :
    Splits text ↔ ∀ place shape slice, SliceAt text place shape slice →
      shape.Accepts slice := by
  constructor
  · intro hsplits
    induction hsplits with
    | done => exact fun place shape slice hslice => (not_sliceAt_nil _ _ _ hslice).elim
    | lexeme haccepts hcut hrest ih =>
        intro place shape slice hslice
        cases hslice with
        | first hcut' =>
            rcases cut_unique hcut hcut' with ⟨rfl, rfl⟩
            exact haccepts
        | later hcut' hlater =>
            rcases cut_unique hcut hcut' with ⟨rfl, rfl⟩
            exact ih _ _ _ hlater
  · intro hall
    induction text using Piece.split_induction with
    | nil => exact .done
    | cons c rest ih =>
        have hcut := Piece.cut_first c rest
        refine .lexeme (hall 0 _ _ (.first hcut)) hcut (ih ?_)
        intro place shape slice hslice
        exact hall _ shape slice (.later hcut hslice)

/-- A slice is a lexeme of its class or one of the two errors. -/
theorem Cut.accepts_or {text slice : List Char} {shape : Shape} (hcut : Cut shape text slice) :
    shape.Accepts slice ∨ shape = .unterminated ∨ shape = .unexpected := by
  cases hcut with
  | lexeme haccepts => exact Or.inl haccepts
  | unterminated => exact Or.inr (Or.inl rfl)
  | unexpected => exact Or.inr (Or.inr rfl)

/-- A text splits into lexemes if no slice of it is an error. -/
theorem splits_iff {text : List Char} :
    Splits text ↔ (∀ place slice, ¬SliceAt text place .unexpected slice) ∧
      ∀ place slice, ¬SliceAt text place .unterminated slice := by
  rw [splits_iff_accepts]
  constructor
  · intro hall
    exact ⟨fun place slice hslice => hall _ _ _ hslice,
      fun place slice hslice => hall _ _ _ hslice⟩
  · rintro ⟨hunexpected, hopen⟩ place shape slice hslice
    rcases hslice.cut.accepts_or with haccepts | rfl | rfl
    · exact haccepts
    · exact (hopen place slice hslice).elim
    · exact (hunexpected place slice hslice).elim

end Lexeme
end Lox
