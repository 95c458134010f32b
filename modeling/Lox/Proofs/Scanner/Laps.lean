import Lox.Scanner.Run
import Lox.Proofs.Lexeme.Piece

/-!
# Laps of a run

A run is a sequence of laps.  Each lap begins a new lexeme at the current place and
scans it.  What a lap does depends on nothing but the first piece of the text that is
left; it never fails.

Main results:

- Theorem {lit}`scanToken_mark`: a lap takes the first piece of what is left.
- Theorem {lit}`scanAll_eq`: a run never fails, and ends where its last lap does.
-/

namespace Lox
namespace Scanner

/-! ## One lap -/

/-- The scanner after a lap that takes the given piece. -/
def take (s : Scanner) (piece : Piece) : Scanner where
  source := s.source
  start := s.current
  text := s.rest
  width := piece.text.length
  line := s.line + piece.text.count '\n'
  tokens := s.tokens ++ (piece.token? (s.line + piece.text.count '\n')).toArray
  faults := s.faults ++ (piece.fault? s.line).toArray
  text_eq := s.rest_eq_drop_current

/-- The lexeme of a lap is the text of its piece. -/
theorem lexeme_take {s : Scanner} {piece : Piece} (hbegins : piece.text <+: s.rest) :
    (s.take piece).lexeme = piece.text :=
  (List.prefix_iff_eq_take.1 hbegins).symm

@[simp]
theorem current_take (s : Scanner) (piece : Piece) :
    (s.take piece).current = s.current + piece.text.length :=
  rfl

@[simp]
theorem rest_take (s : Scanner) (piece : Piece) :
    (s.take piece).rest = s.rest.drop piece.text.length :=
  rfl

/-- A scanner is at its end exactly if nothing is left. -/
theorem isAtEnd_iff (s : Scanner) : s.isAtEnd = true ↔ s.rest = [] :=
  List.isEmpty_iff

theorem not_isAtEnd_of_cons {s : Scanner} {c : Char} {more : List Char}
    (hrest : s.rest = c :: more) : ¬s.isAtEnd = true := by
  rw [isAtEnd_iff, hrest]
  exact List.cons_ne_nil c more

/-- The text between the first and the last character of a lexeme. -/
theorem enclosed_eq {s : Scanner} (hwidth : s.width ≤ s.text.length) :
    s.enclosed = s.lexeme.tail.dropLast := by
  simp only [enclosed, lexeme, List.dropLast_eq_take, ← List.drop_one, List.drop_take,
    List.length_take, List.length_drop, List.take_take]
  congr 1
  omega

/-- What a piece means is added to the scanner that has taken its text. -/
theorem emit_of_lexeme {s : Scanner} {piece : Piece} {line : Nat}
    (hbreak : piece.shape ≠ .lineBreak) (hlexeme : s.lexeme = piece.text)
    (hwidth : s.width ≤ s.text.length)
    (hnumber : piece.shape = .number → ∃ x, Numeral.read? piece.text = some x)
    (hline : piece.shape = .unexpected → s.line = line) :
    emit piece.shape line s =
      .ok () { s with
        tokens := s.tokens ++ (piece.token? s.line).toArray
        faults := s.faults ++ (piece.fault? line).toArray } := by
  cases hshape : piece.shape with
  | lineBreak => exact absurd hshape hbreak
  | number =>
      rcases hnumber hshape with ⟨x, hx⟩
      simp [emit, addToken, Piece.token?, Piece.meaning?, Piece.fault?, hshape, hlexeme, hx]
  | string =>
      simp [emit, addToken, Piece.token?, Piece.meaning?, Piece.fault?, hshape,
        enclosed_eq hwidth, hlexeme]
  | unexpected =>
      simp [emit, addFault, Piece.token?, Piece.meaning?, Piece.fault?, hshape, hline hshape]
  | unterminated =>
      simp [emit, addFault, Piece.token?, Piece.meaning?, Piece.fault?, hshape]
  | operator kind =>
      simp [emit, addToken, Piece.token?, Piece.meaning?, Piece.fault?, hshape, hlexeme]
  | word =>
      simp [emit, addToken, Piece.token?, Piece.meaning?, Piece.fault?, hshape, hlexeme]
  | blank => simp [emit, Piece.token?, Piece.meaning?, Piece.fault?, hshape]
  | comment => simp [emit, Piece.token?, Piece.meaning?, Piece.fault?, hshape]

/-- Where nothing is left there is no lexeme to step over. -/
theorem scanToken_of_nil {s : Scanner} (hrest : s.rest = []) :
    scanToken s = .error .pastEnd s.widen := by
  simp [scanToken, advance, peek?, hrest, bind, EStateM.bind]

/-- A step over a lexeme takes its first character and then its tail. -/
theorem scanToken_of_cons {s : Scanner} {c : Char} {more : List Char}
    (hrest : s.rest = c :: more) :
    scanToken s = finish (Lexeme.tail c more).1 (Lexeme.tail c more).2 s.widen := by
  have hwiden : s.widen.rest = more := by
    rw [rest_widen, hrest, List.tail_cons]
  simp only [scanToken, advance, peek?, hrest, List.head?_cons, bind, EStateM.bind, hwiden]

theorem width_mark (s : Scanner) (c : Char) (tail : List Char) :
    (s.mark.widen.consume tail).width = (c :: tail).length := by
  simp [consume, widen, mark, Nat.add_comm]

/-- The lexeme of a scanner that has passed it from its first character on. -/
theorem lexeme_mark {s : Scanner} {c : Char} {tail : List Char}
    (hbegins : c :: tail <+: s.rest) : (s.mark.widen.consume tail).lexeme = c :: tail := by
  rw [lexeme, s.width_mark c tail]
  exact (List.prefix_iff_eq_take.1 hbegins).symm

/-- A lap takes the first piece of what is left. -/
theorem scanToken_mark {s : Scanner} {c : Char} {more : List Char}
    (hrest : s.rest = c :: more) :
    scanToken s.mark = .ok () (s.take (Piece.first c more)) := by
  have hscan : scanToken s.mark =
      emit (Piece.first c more).shape s.line
        (s.mark.widen.consume (Lexeme.tail c more).2) :=
    scanToken_of_cons (s.rest_mark.trans hrest)
  have hbegins : (Piece.first c more).text <+: s.rest :=
    hrest ▸ Piece.text_first_isPrefix c more
  have hwidth : (s.mark.widen.consume (Lexeme.tail c more).2).width =
      (Piece.first c more).text.length := s.width_mark c _
  rw [hscan]
  -- A line feed that stands alone is counted where it is emitted; one inside a string is
  -- counted where it is taken.
  by_cases hbreak : (Piece.first c more).shape = .lineBreak
  · have htext := Piece.text_of_lineBreak hbreak
    have htail : (Lexeme.tail c more).2 = [] := (List.cons.inj htext).2
    rw [hbreak, htail]
    simp [emit, take, Piece.token?, Piece.meaning?, Piece.fault?, hbreak, htext, consume,
      widen, mark]
  · have hhead := Piece.head_ne_of_shape_ne hbreak
    have hline : (s.mark.widen.consume (Lexeme.tail c more).2).line =
        s.line + (Piece.first c more).text.count '\n' := by
      simp [consume, widen, mark, Piece.first, hhead]
    rw [emit_of_lexeme hbreak]
    · simp only [take, hline, ← hwidth]
      rfl
    · exact lexeme_mark hbegins
    · rw [hwidth]
      exact hbegins.length_le
    · exact Piece.exists_read?_of_shape
    · intro hunexpected
      rw [hline, Piece.text_of_unexpected hunexpected, List.count_singleton,
        if_neg (by simpa using hhead), Nat.add_zero]

/-! ## A run -/

/-- The scanners that the laps of a run leave behind, in order. -/
def laps (s : Scanner) : List Scanner :=
  if s.isAtEnd then
    []
  else
    match _hscan : scanToken s.mark with
    | .ok () next => next :: laps next
    | .error _ next => [next]
termination_by s.rest.length
decreasing_by
  have hless := length_rest_scanToken _hscan
  simpa using hless

theorem laps_of_nil {s : Scanner} (hrest : s.rest = []) : laps s = [] := by
  rw [laps, if_pos ((isAtEnd_iff s).2 hrest)]

/-- The first lap takes the first piece, and the others go on from there. -/
theorem laps_of_cons {s : Scanner} {c : Char} {more : List Char} (hrest : s.rest = c :: more) :
    laps s = s.take (Piece.first c more) :: laps (s.take (Piece.first c more)) := by
  rw [laps, if_neg (not_isAtEnd_of_cons hrest)]
  split
  · rename_i next hscan
    rw [scanToken_mark hrest] at hscan
    cases hscan
    rfl
  · rename_i error next hscan
    rw [scanToken_mark hrest] at hscan
    cases hscan

/-- A scan of what is left begins with a lap over the first piece. -/
theorem scanAll_of_cons {s : Scanner} {c : Char} {more : List Char}
    (hrest : s.rest = c :: more) :
    scanAll s = scanAll (s.take (Piece.first c more)) := by
  rw [scanAll, if_neg (not_isAtEnd_of_cons hrest)]
  split
  · rename_i next hscan
    rw [scanToken_mark hrest] at hscan
    cases hscan
    rfl
  · rename_i error next hscan
    rw [scanToken_mark hrest] at hscan
    cases hscan

/-- What holds where nothing is left, and before a lap if it holds after it, holds of
every scanner. -/
@[elab_as_elim]
theorem lap_induction {motive : Scanner → Prop}
    (done : ∀ s : Scanner, s.rest = [] → motive s)
    (lap : ∀ (s : Scanner) (c : Char) (more : List Char), s.rest = c :: more →
      motive (s.take (Piece.first c more)) → motive s)
    (s : Scanner) : motive s := by
  cases hrest : s.rest with
  | nil => exact done s hrest
  | cons c more =>
      apply lap s c more hrest
      exact lap_induction done lap (s.take (Piece.first c more))
termination_by s.rest.length
decreasing_by
  simp only [rest_take, hrest, Piece.first, List.length_cons, List.drop_succ_cons,
    List.length_drop]
  omega

/-- A run never fails, and ends where its last lap does. -/
theorem scanAll_eq (s : Scanner) : scanAll s = .ok () ((laps s).getLastD s) := by
  induction s using lap_induction with
  | done s hrest =>
      rw [scanAll_of_isAtEnd ((isAtEnd_iff s).2 hrest), laps_of_nil hrest]
      rfl
  | lap s c more hrest ih =>
      rw [scanAll_of_cons hrest, ih, laps_of_cons hrest, List.getLastD_cons]

/-! ## Places of laps -/

theorem lexeme_take_first {s : Scanner} {c : Char} {more : List Char}
    (hrest : s.rest = c :: more) :
    (s.take (Piece.first c more)).lexeme = (Piece.first c more).text :=
  lexeme_take (hrest ▸ Piece.text_first_isPrefix c more)

/-- A lap cuts its lexeme off the text that is left. -/
theorem lexeme_append_rest_take {s : Scanner} {c : Char} {more : List Char}
    (hrest : s.rest = c :: more) :
    (s.take (Piece.first c more)).lexeme ++ (s.take (Piece.first c more)).rest = s.rest := by
  rcases Piece.text_first_isPrefix c more with ⟨after, hafter⟩
  rw [lexeme_take_first hrest, rest_take, hrest, ← hafter, List.drop_left]

/-- The lexemes of a run are the text that it finds left. -/
theorem flatten_lexemes (s : Scanner) : ((laps s).map lexeme).flatten = s.rest := by
  induction s using lap_induction with
  | done s hrest => rw [laps_of_nil hrest, hrest, List.map_nil, List.flatten_nil]
  | lap s c more hrest ih =>
      rw [laps_of_cons hrest, List.map_cons, List.flatten_cons, ih,
        lexeme_append_rest_take hrest]

/-- After some of its laps a run is at the place behind their lexemes, and goes on with
the other laps. -/
theorem laps_split {s : Scanner} {before after : List Scanner}
    (hsplit : laps s = before ++ after) :
    (before.getLastD s).source = s.source ∧
      (before.getLastD s).current = s.current + (before.map lexeme).flatten.length ∧
      laps (before.getLastD s) = after := by
  induction s using lap_induction generalizing before with
  | done s hrest =>
      rw [laps_of_nil hrest] at hsplit
      rcases List.append_eq_nil_iff.1 hsplit.symm with ⟨rfl, rfl⟩
      exact ⟨rfl, rfl, laps_of_nil hrest⟩
  | lap s c more hrest ih =>
      cases before with
      | nil => exact ⟨rfl, rfl, hsplit⟩
      | cons lap before =>
          rw [laps_of_cons hrest, List.cons_append, List.cons.injEq] at hsplit
          rcases hsplit with ⟨rfl, hsplit⟩
          rcases ih hsplit with ⟨hsource, hcurrent, hlaps⟩
          rw [List.getLastD_cons]
          refine ⟨hsource, ?_, hlaps⟩
          rw [hcurrent, current_take, List.map_cons, List.flatten_cons, List.length_append,
            lexeme_take_first hrest, Nat.add_assoc]

/-- A lap takes the first piece of the text that the laps before it have left. -/
theorem lap_of_split {s lap : Scanner} {before after : List Scanner}
    (hsplit : laps s = before ++ lap :: after) :
    ∃ c more, (before.getLastD s).rest = c :: more ∧
      lap = (before.getLastD s).take (Piece.first c more) := by
  rcases laps_split hsplit with ⟨-, -, hlaps⟩
  cases hrest : (before.getLastD s).rest with
  | nil =>
      rw [laps_of_nil hrest] at hlaps
      cases hlaps
  | cons c more =>
      rw [laps_of_cons hrest] at hlaps
      exact ⟨c, more, rfl, (List.cons.inj hlaps).1.symm⟩

end Scanner
end Lox
