import Lox.Proofs.Lexeme.Continuation
import Lox.Proofs.Scanner.Cursor
import Lox.Proofs.Scanner.Outcome

/-!
# Scanning by places

A cursor that starts where a scanner stands does what the scanner does.  So no scanner reads
at a place before its text, each of its loops ends after one round for every place that is
left and one more, and a run reads numbers from plain numerals only.

Main results:

- Theorem {lit}`loop_takeWhile`: a loop that goes on one place at a time takes the characters
  of a class that are next.
- Theorem {lit}`scanToken_cursor`: a cursor scans the lexeme that the scanner scans.
- Theorem {lit}`scanTokens_cursor`: so does a run, whatever the conversion makes of texts that
  are no plain numerals.
- Theorem {lit}`perform_cursor`: a cursor does what the scanner does at every call.
- Theorem {lit}`performAll_cursor`: it stands where the scanner does after every history.
-/

namespace Lox
namespace Scanner

open Cursor (readAt readBetween bind_of_ok bind_of_error get_bind modify_bind discard_of_ok)

/-! ## The cursor of a scanner -/

/-- The cursor that stands where the scanner does. -/
def cursor (s : Scanner) : Cursor where
  source := s.source
  start := s.start
  current := s.current
  line := s.line
  tokens := s.tokens
  faults := s.faults

/-- What a step of a scanner comes to, seen by a cursor. -/
def seen {α : Type} : EStateM.Result ScanError Scanner α →
    EStateM.Result Cursor.Failure Cursor α
  | .ok answer next => .ok answer next.cursor
  | .error error next => .error (.scan error) next.cursor

/-- A scanner is known by where it stands and by what it has found. -/
theorem cursor_inj {s t : Scanner} (hcursor : s.cursor = t.cursor) : s = t := by
  rcases s with ⟨source, start, text, width, line, tokens, faults, htext⟩
  rcases t with ⟨source', start', text', width', line', tokens', faults', htext'⟩
  simp only [cursor, current, Cursor.mk.injEq, Int.natCast_inj] at hcursor
  rcases hcursor with ⟨rfl, rfl, hcurrent, rfl, rfl, rfl⟩
  have hwidth := Nat.add_left_cancel hcurrent
  have hsame := htext.trans htext'.symm
  subst hwidth
  subst hsame
  rfl

theorem cursor_ofSource (source : String) :
    (ofSource source).cursor = Cursor.ofSource source :=
  rfl

@[simp]
theorem isAtEnd_cursor (s : Scanner) : s.cursor.isAtEnd = s.isAtEnd := by
  rw [Bool.eq_iff_iff, isAtEnd_iff, rest_eq_drop_current, List.drop_eq_nil_iff,
    Cursor.isAtEnd, decide_eq_true_iff]
  exact Int.ofNat_le

theorem isAtEnd_cursor_of_none {s : Scanner} (hpeek : s.peek? = none) :
    s.cursor.isAtEnd = true := by
  rw [isAtEnd_cursor, isAtEnd_iff]
  exact List.head?_eq_none_iff.1 hpeek

theorem not_isAtEnd_cursor_of_some {s : Scanner} {c : Char} (hpeek : s.peek? = some c) :
    ¬s.cursor.isAtEnd = true := by
  rcases List.head?_eq_some_iff.1 hpeek with ⟨more, hrest⟩
  rw [isAtEnd_cursor]
  exact not_isAtEnd_of_cons hrest

/-! ## Single characters -/

/-- The character at the current place is the next one. -/
theorem getElem?_current (s : Scanner) : s.source[s.current]? = s.peek? := by
  rw [peek?, rest_eq_drop_current, List.head?_drop]

theorem getElem?_succ_current (s : Scanner) : s.source[s.current + 1]? = s.peekNext? := by
  rw [peekNext?, rest_eq_drop_current, List.tail_drop, List.head?_drop]

theorem begins_rest_iff (s : Scanner) (c : Char) :
    Lexeme.Begins (· = c) s.rest ↔ s.peek? = some c := by
  rw [peek?, List.head?_eq_some_iff]
  constructor
  · rintro ⟨_, more, hrest, rfl⟩
    exact ⟨more, hrest⟩
  · rintro ⟨more, hrest⟩
    exact ⟨c, more, hrest, rfl⟩

theorem readAt_cursor {s : Scanner} {place : Nat} {c : Char}
    (hplace : s.source[place]? = some c) : readAt place s.cursor = .ok c s.cursor := by
  have hsource : s.cursor.source[place]? = some c := hplace
  simp only [readAt, hsource]

/-- A cursor sees the next character that the scanner sees, and never fails. -/
theorem peek_cursor (s : Scanner) : Cursor.peek s.cursor = .ok s.peek? s.cursor := by
  rw [Cursor.peek, get_bind]
  cases hpeek : s.peek? with
  | none =>
      rw [if_pos (isAtEnd_cursor_of_none hpeek)]
      rfl
  | some c =>
      rw [if_neg (not_isAtEnd_cursor_of_some hpeek), get_bind]
      exact bind_of_ok (readAt_cursor (s.getElem?_current.trans hpeek)) _

theorem peekNext_cursor (s : Scanner) :
    Cursor.peekNext s.cursor = .ok s.peekNext? s.cursor := by
  have hnext := s.getElem?_succ_current
  rw [Cursor.peekNext, get_bind]
  cases hpeek : s.peekNext? with
  | none =>
      have hend : (s.cursor.source.length : Int) ≤ s.cursor.current + 1 := by
        rw [hpeek, List.getElem?_eq_none_iff] at hnext
        exact Int.ofNat_le.2 hnext
      rw [if_pos hend]
      rfl
  | some c =>
      rw [hpeek] at hnext
      have hend : ¬(s.cursor.source.length : Int) ≤ s.cursor.current + 1 := by
        rcases List.getElem?_eq_some_iff.1 hnext with ⟨hless, -⟩
        have hplaces : (s.current + 1 : Int) < s.source.length := Int.ofNat_lt.2 hless
        exact Int.not_le.2 hplaces
      rw [if_neg hend]
      exact bind_of_ok (readAt_cursor hnext) _

theorem step_cursor (s : Scanner) : s.cursor.step = s.widen.cursor :=
  rfl

/-- The place that an advance has passed is the one at which the scanner stood. -/
theorem advance_cursor_eq_readAt (s : Scanner) :
    Cursor.advance s.cursor = readAt s.current s.widen.cursor := by
  have hplace : s.widen.cursor.current - 1 = s.current :=
    Int.add_sub_cancel (s.current : Int) 1
  rw [Cursor.advance, modify_bind, get_bind, step_cursor, hplace]

/-- An advance reads the next character. -/
theorem advance_cursor_of_some {s : Scanner} {c : Char} (hpeek : s.peek? = some c) :
    Cursor.advance s.cursor = .ok c s.widen.cursor := by
  have hsource : s.widen.source[s.current]? = some c := s.getElem?_current.trans hpeek
  rw [advance_cursor_eq_readAt, readAt_cursor hsource]

/-- Where there is none, an advance fails and has gone on. -/
theorem advance_cursor_of_none {s : Scanner} (hpeek : s.peek? = none) :
    Cursor.advance s.cursor = .error (.scan .pastEnd) s.widen.cursor := by
  have hsource : s.widen.cursor.source[s.current]? = none := s.getElem?_current.trans hpeek
  rw [advance_cursor_eq_readAt]
  simp only [readAt, hsource]

theorem accept_cursor_of_some {s : Scanner} {expected : Char}
    (hpeek : s.peek? = some expected) :
    Cursor.accept expected s.cursor = .ok true s.widen.cursor := by
  rw [Cursor.accept, bind_of_ok s.peek_cursor, if_pos hpeek]
  rfl

theorem accept_cursor_of_ne {s : Scanner} {expected : Char}
    (hpeek : s.peek? ≠ some expected) :
    Cursor.accept expected s.cursor = .ok false s.cursor := by
  rw [Cursor.accept, bind_of_ok s.peek_cursor, if_neg hpeek]
  rfl

/-! ## Loops -/

theorem consume_append (s : Scanner) (piece more : List Char) :
    s.consume (piece ++ more) = (s.consume piece).consume more := by
  simp [consume, Nat.add_assoc]

theorem consume_cons (s : Scanner) (c : Char) (more : List Char) :
    s.consume (c :: more) = (s.consume [c]).consume more :=
  s.consume_append [c] more

/-- A character that is no line feed is passed without counting a line. -/
theorem consume_singleton {c : Char} (hbreak : c ≠ '\n') (s : Scanner) :
    s.consume [c] = s.widen := by
  simp [consume, widen, hbreak]

/-- A loop whose rounds pass one character each, as long as there are characters of a class,
passes all of them that are next. -/
theorem loop_takeWhile {α : Type} (isMember : Char → Bool) (answer : Scanner → α)
    {round : CursorM (Option α)}
    (hmember : ∀ (s : Scanner) (c : Char), s.peek? = some c → isMember c = true →
      round s.cursor = .ok none (s.consume [c]).cursor)
    (hother : ∀ s : Scanner, s.peek?.any isMember = false →
      round s.cursor = .ok (some (answer s)) s.cursor)
    {s : Scanner} {rounds : Nat} (hrounds : s.rest.length < rounds) :
    Cursor.loop round rounds s.cursor =
      .ok (answer (s.consume (s.rest.takeWhile isMember)))
        (s.consume (s.rest.takeWhile isMember)).cursor := by
  -- Every round but the last takes one character, so the rounds outlast the text.
  induction rounds generalizing s with
  | zero => exact absurd hrounds (Nat.not_lt_zero _)
  | succ rounds ih =>
      rw [Cursor.loop]
      cases hrest : s.rest with
      | nil =>
          rw [bind_of_ok (hother s (by rw [peek?, hrest]; rfl))]
          rfl
      | cons c more =>
          have hpeek : s.peek? = some c := by rw [peek?, hrest, List.head?_cons]
          by_cases hclass : isMember c = true
          · have hmore : (s.consume [c]).rest = more := rest_consume hrest
            rw [hrest, List.length_cons] at hrounds
            rw [bind_of_ok (hmember s c hpeek hclass), List.takeWhile_cons_of_pos hclass,
              s.consume_cons c (more.takeWhile isMember), ← hmore]
            apply ih
            rw [hmore]
            omega
          · rw [bind_of_ok (hother s (by rw [hpeek]; simpa using hclass)),
              List.takeWhile_cons_of_neg hclass]
            rfl

/-- There are rounds enough for a loop to come to the end. -/
theorem length_rest_lt_rounds (s : Scanner) : s.rest.length < s.cursor.rounds := by
  have hlength : (s.cursor.source.length : Int) - s.cursor.current =
      (s.source.length : Int) - s.current := rfl
  rw [rest_eq_drop_current, List.length_drop, Cursor.rounds, hlength]
  omega

/-- What is left behind the characters of a class that are next. -/
theorem rest_consume_takeWhile (s : Scanner) (isMember : Char → Bool) :
    (s.consume (s.rest.takeWhile isMember)).rest = s.rest.dropWhile isMember :=
  rest_consume List.takeWhile_append_dropWhile.symm

/-- A round on the way passes a character that is not looked for, and counts its line. -/
theorem skipRound_cursor_of_ne {s : Scanner} {expected c : Char} (hpeek : s.peek? = some c)
    (hother : c ≠ expected) :
    Cursor.skipRound expected s.cursor = .ok none (s.consume [c]).cursor := by
  rw [Cursor.skipRound, get_bind, if_neg (not_isAtEnd_cursor_of_some hpeek),
    bind_of_ok s.peek_cursor, hpeek, if_neg fun hsame => hother (Option.some.inj hsame)]
  by_cases hbreak : c = '\n'
  · -- The line is counted before its line feed is passed.
    subst hbreak
    have hadvance := advance_cursor_of_some (s := { s with line := s.line + 1 }) hpeek
    rw [if_pos rfl, modify_bind]
    exact bind_of_ok (discard_of_ok hadvance) _
  · rw [if_neg fun hsame => hbreak (Option.some.inj hsame), consume_singleton hbreak]
    exact bind_of_ok (discard_of_ok (advance_cursor_of_some hpeek)) _

/-- A round that passes nothing tells whether the character that is looked for is next. -/
theorem skipRound_cursor_of_none {s : Scanner} {expected : Char}
    (hnone : s.peek?.any (· != expected) = false) :
    Cursor.skipRound expected s.cursor = .ok (some s.peek?.isSome) s.cursor := by
  rw [Cursor.skipRound, get_bind]
  cases hpeek : s.peek? with
  | none =>
      rw [if_pos (isAtEnd_cursor_of_none hpeek)]
      rfl
  | some c =>
      rw [hpeek, Option.any_some, bne_eq_false_iff_eq] at hnone
      rw [if_neg (not_isAtEnd_cursor_of_some hpeek), bind_of_ok s.peek_cursor, hpeek, hnone,
        if_pos rfl]
      rfl

/-- Something is left from a character on exactly if the text has it. -/
theorem isSome_head?_dropWhile (expected : Char) (text : List Char) :
    (text.dropWhile (· != expected)).head?.isSome = text.contains expected := by
  rw [Bool.eq_iff_iff, Option.isSome_iff_ne_none, Ne, List.head?_eq_none_iff,
    List.dropWhile_eq_nil_iff]
  simp

/-- With a round for every character that is left and one more, a cursor comes to the next
character of a kind, or to the end. -/
theorem loop_skipRound (expected : Char) {s : Scanner} {rounds : Nat}
    (hrounds : s.rest.length < rounds) :
    Cursor.loop (Cursor.skipRound expected) rounds s.cursor =
      .ok (s.rest.contains expected)
        (s.consume (s.rest.takeWhile (· != expected))).cursor := by
  have hloop := loop_takeWhile (· != expected) (fun s => s.peek?.isSome)
    (fun s c hpeek hclass => skipRound_cursor_of_ne hpeek (bne_iff_ne.1 hclass))
    (fun s hnone => skipRound_cursor_of_none hnone) hrounds
  rwa [peek?, rest_consume_takeWhile, isSome_head?_dropWhile] at hloop

/-- A cursor goes on to the next character of a kind as a scanner does. -/
theorem skipTo_cursor (s : Scanner) (expected : Char) :
    Cursor.skipTo expected s.cursor =
      .ok (s.rest.contains expected)
        (s.consume (s.rest.takeWhile (· != expected))).cursor := by
  rw [Cursor.skipTo, get_bind, loop_skipRound expected s.length_rest_lt_rounds]

/-- A cursor goes on over a class of characters that has no line feed. -/
theorem skipWhile_cursor {isMember : Char → Bool} (hbreak : isMember '\n' = false)
    (s : Scanner) :
    Cursor.skipWhile isMember s.cursor =
      .ok () (s.consume (s.rest.takeWhile isMember)).cursor := by
  rw [Cursor.skipWhile, get_bind]
  refine loop_takeWhile isMember (fun _ => ()) ?_ ?_ s.length_rest_lt_rounds
  · intro s c hpeek hclass
    have hne : c ≠ '\n' := by
      rintro rfl
      rw [hbreak] at hclass
      cases hclass
    rw [Cursor.skipWhileRound, bind_of_ok s.peek_cursor, hpeek, Option.any_some,
      if_pos hclass, consume_singleton hne]
    exact bind_of_ok (discard_of_ok (advance_cursor_of_some hpeek)) _
  · intro s hnone
    rw [Cursor.skipWhileRound, bind_of_ok s.peek_cursor, hnone]
    rfl

/-! ## Lexemes -/

/-- The lexeme is the source between its start and the current place. -/
theorem drop_take_source (s : Scanner) : (s.source.take s.current).drop s.start = s.lexeme := by
  rw [List.drop_take, current, Nat.add_sub_cancel_left, ← s.text_eq]
  rfl

/-- The text between the start and the current place is the lexeme. -/
theorem readBetween_lexeme (s : Scanner) :
    readBetween s.cursor.start s.cursor.current s.cursor = .ok s.lexeme s.cursor := by
  rw [← drop_take_source]
  rfl

/-- A cursor adds the token that the scanner adds. -/
theorem addToken_cursor (s : Scanner) (kind : Token.Kind) (literal : Value) :
    Cursor.addToken kind literal s.cursor = .ok () (s.addToken kind literal).cursor := by
  rw [Cursor.addToken, get_bind, bind_of_ok s.readBetween_lexeme]
  rfl

/-- The text inside the quotes, where at least one character has been passed. -/
theorem readBetween_enclosed (s : Scanner) :
    readBetween (s.widen.cursor.start + 1) (s.widen.cursor.current - 1) s.widen.cursor =
      .ok s.widen.enclosed s.widen.cursor := by
  have hlast : s.widen.cursor.current - 1 = s.current :=
    Int.add_sub_cancel (s.current : Int) 1
  have hfirst : s.widen.cursor.start + 1 = ((s.start + 1 : Nat) : Int) := rfl
  have htext : (s.source.take s.current).drop (s.start + 1) = s.widen.enclosed := by
    have hwidth : s.current - (s.start + 1) = s.width + 1 - 2 := by
      rw [current]
      omega
    rw [List.drop_take, hwidth, ← List.drop_drop, ← s.text_eq, List.drop_one]
    rfl
  rw [hlast, hfirst, ← htext]
  rfl

theorem string_cursor (s : Scanner) : Cursor.string s.cursor = seen (string s) := by
  rw [Cursor.string, get_bind, bind_of_ok (s.skipTo_cursor '\x22'), ← isSome_head?_dropWhile]
  cases hstop : s.rest.dropWhile (· != '\x22') with
  | nil =>
      simp only [string, Lexeme.stringTail, hstop]
      rfl
  | cons quote more =>
      -- A quote is next, so the advance over it does not fail.
      have hquote : quote ≠ '\n' := by
        have hsame := Lexeme.not_of_dropWhile_cons hstop
        rw [bne_eq_false_iff_eq] at hsame
        rw [hsame]
        decide
      have hpeek : (s.consume (s.rest.takeWhile (· != '\x22'))).peek? = some quote := by
        rw [peek?, rest_consume_takeWhile, hstop, List.head?_cons]
      simp only [string, Lexeme.stringTail, hstop]
      rw [List.head?_cons, Option.isSome_some, if_pos rfl,
        bind_of_ok (discard_of_ok (advance_cursor_of_some hpeek)), get_bind,
        bind_of_ok (readBetween_enclosed _), addToken_cursor, finish, consume_append,
        consume_singleton hquote]
      rfl

theorem identifier_cursor (s : Scanner) :
    Cursor.identifier s.cursor = seen (identifier s) := by
  rw [Cursor.identifier, bind_of_ok (skipWhile_cursor (by decide) s), get_bind,
    bind_of_ok (readBetween_lexeme _), addToken_cursor]
  rfl

/-- A point is passed where a digit is behind it. -/
theorem skipFraction_cursor (s : Scanner) :
    Cursor.skipFraction s.cursor = .ok () (s.consume (Lexeme.fraction s.rest)).cursor := by
  rw [Cursor.skipFraction, bind_of_ok s.peek_cursor]
  by_cases hpoint : s.peek? = some '.'
  · rcases List.head?_eq_some_iff.1 hpoint with ⟨more, hrest⟩
    have hmore : s.widen.rest = more := by rw [rest_widen, hrest, List.tail_cons]
    rw [if_pos hpoint, bind_of_ok s.peekNext_cursor, peekNext?, hrest, List.tail_cons]
    cases more with
    | nil => rfl
    | cons c more =>
        rw [List.head?_cons, Option.any_some, Lexeme.fraction]
        by_cases hdigit : Lexeme.isDigit c = true
        · rw [if_pos hdigit, if_pos hdigit,
            bind_of_ok (discard_of_ok (advance_cursor_of_some hpoint)),
            skipWhile_cursor (by decide), hmore, List.takeWhile_cons_of_pos hdigit,
            ← consume_singleton (by decide : '.' ≠ '\n'), ← consume_append]
          rfl
        · rw [if_neg hdigit, if_neg hdigit]
          rfl
  · have hnone : ¬Lexeme.BeginsFraction s.rest := by
      rintro ⟨more, hrest, -⟩
      exact hpoint ((s.begins_rest_iff '.').1 ⟨'.', more, hrest, rfl⟩)
    rw [if_neg hpoint, (Lexeme.fraction_eq_nil_iff s.rest).2 hnone]
    rfl

/-- A cursor scans a number as the scanner does, if its conversion reads the lexeme alike. -/
theorem number_cursor {convert : List Char → Option Binary64} {s : Scanner}
    (hconvert : convert (s.consume (Lexeme.numberTail s.rest)).lexeme =
      Numeral.read? (s.consume (Lexeme.numberTail s.rest)).lexeme) :
    Cursor.number convert s.cursor = seen (number s) := by
  have hdigits := skipWhile_cursor (by decide : Lexeme.isDigit '\n' = false) s
  have hfraction := (s.consume (s.rest.takeWhile Lexeme.isDigit)).skipFraction_cursor
  rw [rest_consume_takeWhile, ← consume_append] at hfraction
  rw [Cursor.number, bind_of_ok hdigits, bind_of_ok hfraction, get_bind,
    bind_of_ok (readBetween_lexeme _), ← Lexeme.numberTail, hconvert, number, finish, emit]
  cases hread : Numeral.read? (s.consume (Lexeme.numberTail s.rest)).lexeme with
  | none => rfl
  | some x => exact addToken_cursor _ _ _

/-- An operator takes the equals sign that follows it. -/
theorem comparison_cursor (s : Scanner) (alone withEqual : Token.Kind) :
    (do Cursor.addToken (if ← Cursor.accept '=' then withEqual else alone) .nil) s.cursor =
      seen (finish (Lexeme.comparisonTail alone withEqual s.rest).1
        (Lexeme.comparisonTail alone withEqual s.rest).2 s) := by
  by_cases hequal : s.peek? = some '='
  · rcases List.head?_eq_some_iff.1 hequal with ⟨more, hrest⟩
    rw [bind_of_ok (accept_cursor_of_some hequal), hrest, if_pos rfl, addToken_cursor,
      Lexeme.comparisonTail, finish, consume_singleton (by decide)]
    rfl
  · have hnone : ¬Lexeme.Begins (· = '=') s.rest := (s.begins_rest_iff '=').not.2 hequal
    rw [bind_of_ok (accept_cursor_of_ne hequal), Lexeme.comparisonTail_of_not_begins hnone,
      if_neg Bool.false_ne_true, addToken_cursor]
    rfl

/-- A slash begins a comment where another one follows it. -/
theorem slash_cursor (s : Scanner) :
    (do
      if ← Cursor.accept '/' then
        discard (Cursor.skipTo '\n')
      else
        Cursor.addToken .slash .nil) s.cursor =
      seen (finish (Lexeme.slashTail s.rest).1 (Lexeme.slashTail s.rest).2 s) := by
  by_cases hslash : s.peek? = some '/'
  · rcases List.head?_eq_some_iff.1 hslash with ⟨more, hrest⟩
    rw [bind_of_ok (accept_cursor_of_some hslash), if_pos rfl,
      discard_of_ok (s.widen.skipTo_cursor '\n'), rest_widen, hrest, Lexeme.slashTail, finish,
      consume_cons, consume_singleton (by decide)]
    rfl
  · have hnone : ¬Lexeme.Begins (· = '/') s.rest := (s.begins_rest_iff '/').not.2 hslash
    rw [bind_of_ok (accept_cursor_of_ne hslash), Lexeme.slashTail_of_not_begins hnone,
      if_neg Bool.false_ne_true, addToken_cursor]
    rfl

/-- A cursor scans the lexeme that a scanner scans, if it reads the number that the scanner
reads where the lexeme is a number. -/
theorem scanLexeme_cursor {convert : List Char → Option Binary64} {s : Scanner} {c : Char}
    (hconvert : Lexeme.isDigit c = true →
      convert (s.consume (Lexeme.numberTail s.rest)).lexeme =
        Numeral.read? (s.consume (Lexeme.numberTail s.rest)).lexeme) :
    Cursor.scanLexeme convert c s.cursor =
      seen (finish (Lexeme.tail c s.rest).1 (Lexeme.tail c s.rest).2 s) := by
  rw [Cursor.scanLexeme, Lexeme.tail]
  cases hmark : Lexeme.mark? c with
  | some kind => exact s.addToken_cursor _ _
  | none =>
      cases hcomparison : Lexeme.comparison? c with
      | some kinds => exact s.comparison_cursor _ _
      | none =>
          dsimp only
          by_cases hslash : c = '/'
          · rw [if_pos hslash, if_pos hslash]
            exact s.slash_cursor
          rw [if_neg hslash, if_neg hslash]
          by_cases hbreak : c = '\n'
          · rw [if_pos hbreak, if_pos hbreak]
            rfl
          rw [if_neg hbreak, if_neg hbreak]
          by_cases hblank : c = ' ' ∨ c = '\r' ∨ c = '\t'
          · rw [if_pos hblank, if_pos hblank]
            rfl
          rw [if_neg hblank, if_neg hblank]
          by_cases hquote : c = '\x22'
          · rw [if_pos hquote, if_pos hquote]
            exact s.string_cursor
          rw [if_neg hquote, if_neg hquote]
          by_cases hdigit : Lexeme.isDigit c = true
          · rw [if_pos hdigit, if_pos hdigit]
            exact number_cursor (hconvert hdigit)
          rw [if_neg hdigit, if_neg hdigit]
          by_cases hletter : Lexeme.isLetter c = true
          · rw [if_pos hletter, if_pos hletter]
            exact s.identifier_cursor
          · rw [if_neg hletter, if_neg hletter]
            rfl

/-- A cursor scans the next token as a scanner does, if its conversion reads the lexeme alike. -/
theorem scanToken_cursor {convert : List Char → Option Binary64} {s : Scanner}
    (hconvert : ∀ c more, s.rest = c :: more → Lexeme.isDigit c = true →
      convert (s.widen.consume (Lexeme.numberTail more)).lexeme =
        Numeral.read? (s.widen.consume (Lexeme.numberTail more)).lexeme) :
    Cursor.scanToken convert s.cursor = seen (scanToken s) := by
  cases hrest : s.rest with
  | nil =>
      have hpeek : s.peek? = none := by rw [peek?, hrest, List.head?_nil]
      rw [Cursor.scanToken, bind_of_error (advance_cursor_of_none hpeek), scanToken_of_nil hrest]
      rfl
  | cons c more =>
      have hpeek : s.peek? = some c := by rw [peek?, hrest, List.head?_cons]
      have hmore : s.widen.rest = more := by rw [rest_widen, hrest, List.tail_cons]
      rw [scanToken_of_cons hrest, Cursor.scanToken, bind_of_ok (advance_cursor_of_some hpeek),
        scanLexeme_cursor, hmore]
      intro hdigit
      rw [hmore]
      exact hconvert c more hrest hdigit

/-! ## Runs -/

/-- A conversion reads every plain numeral as the number that it denotes.  What it makes of
other texts is left open. -/
def ReadsNumbers (convert : List Char → Option Binary64) : Prop :=
  ∀ text, Lexeme.Shape.number.Accepts text → convert text = Numeral.read? text

/-- One round of a run is one lap of the scanner. -/
theorem scanRound_cursor {convert : List Char → Option Binary64} (hconvert : ReadsNumbers convert)
    {s : Scanner} {c : Char} {more : List Char} (hrest : s.rest = c :: more) :
    Cursor.scanRound convert s.cursor = .ok none (s.take (Piece.first c more)).cursor := by
  have hend : ¬s.cursor.isAtEnd = true := by
    rw [isAtEnd_cursor]
    exact not_isAtEnd_of_cons hrest
  have hscan : Cursor.scanToken convert s.mark.cursor =
      .ok () (s.take (Piece.first c more)).cursor := by
    rw [scanToken_cursor, scanToken_mark hrest]
    · rfl
    · -- The lexeme begins at its digit, so its text is a plain numeral.
      intro d after hafter hdigit
      have hnumber := Lexeme.accepts_numberTail hdigit after
      have hbegins : d :: Lexeme.numberTail after <+: s.rest := by
        rw [← rest_mark, hafter, List.prefix_cons_inj]
        exact Lexeme.numberTail_isPrefix after
      rw [lexeme_mark hbegins]
      exact hconvert _ hnumber
  rw [Cursor.scanRound, get_bind, if_neg hend, modify_bind]
  exact bind_of_ok hscan _

/-- A cursor scans lexeme after lexeme as a scanner does. -/
theorem loop_scanRound {convert : List Char → Option Binary64} (hconvert : ReadsNumbers convert)
    {s : Scanner} {rounds : Nat} (hrounds : s.rest.length < rounds) :
    Cursor.loop (Cursor.scanRound convert) rounds s.cursor =
      .ok () ((laps s).getLastD s).cursor := by
  induction s using lap_induction generalizing rounds with
  | done s hrest =>
      have hend : s.cursor.isAtEnd = true := by rw [isAtEnd_cursor, isAtEnd_iff, hrest]
      cases rounds with
      | zero => exact absurd hrounds (Nat.not_lt_zero _)
      | succ rounds =>
          have hround : Cursor.scanRound convert s.cursor = .ok (some ()) s.cursor := by
            rw [Cursor.scanRound, get_bind, if_pos hend]
            rfl
          rw [Cursor.loop, bind_of_ok hround, laps_of_nil hrest]
          rfl
  | lap s c more hrest ih =>
      cases rounds with
      | zero => exact absurd hrounds (Nat.not_lt_zero _)
      | succ rounds =>
          rw [Cursor.loop, bind_of_ok (scanRound_cursor hconvert hrest), laps_of_cons hrest,
            List.getLastD_cons]
          apply ih
          rw [rest_take, hrest, List.length_drop, Piece.first, List.length_cons]
          rw [hrest, List.length_cons] at hrounds
          simp only [List.length_cons]
          omega

/-- A scan by places comes to what a scan comes to, and reads numbers from plain numerals
only. -/
theorem scanTokens_cursor {convert : List Char → Option Binary64}
    (hconvert : ReadsNumbers convert) (s : Scanner) :
    Cursor.scanTokens convert s.cursor = seen (scanTokens s) := by
  rw [Cursor.scanTokens, get_bind,
    bind_of_ok (loop_scanRound hconvert s.length_rest_lt_rounds), scanTokens_eq]
  rfl

/-! ## Calls -/

/-- What is made of an answer is made of it by both. -/
theorem bind_cursor {α β : Type} {step : ScanM α} {stepByPlaces : CursorM α} {s : Scanner}
    (hstep : stepByPlaces s.cursor = seen (step s)) (answer : α → β) :
    (stepByPlaces >>= fun a => pure (answer a)) s.cursor =
      seen ((step >>= fun a => pure (answer a)) s) := by
  cases hresult : step s with
  | ok a next =>
      rw [hresult] at hstep
      rw [bind_of_ok hstep]
      simp only [bind, EStateM.bind, hresult]
      rfl
  | error error next =>
      rw [hresult] at hstep
      rw [bind_of_error hstep]
      simp only [bind, EStateM.bind, hresult]
      rfl

theorem advance_cursor (s : Scanner) : Cursor.advance s.cursor = seen (advance s) := by
  rw [advance]
  cases hpeek : s.peek? with
  | none => exact advance_cursor_of_none hpeek
  | some c => exact advance_cursor_of_some hpeek

theorem accept_cursor (s : Scanner) (expected : Char) :
    Cursor.accept expected s.cursor = seen (accept expected s) := by
  rw [accept]
  by_cases hpeek : s.peek? = some expected
  · rw [accept_cursor_of_some hpeek, if_pos hpeek]
    rfl
  · rw [accept_cursor_of_ne hpeek, if_neg hpeek]
    rfl

/-- A cursor does what the scanner does at every call. -/
theorem perform_cursor (s : Scanner) (c : Call) :
    Cursor.perform Numeral.read? c s.cursor = seen (perform c s) := by
  cases c with
  | isAtEnd =>
      rw [Cursor.perform, get_bind, isAtEnd_cursor]
      rfl
  | peek => exact bind_of_ok s.peek_cursor _
  | peekNext => exact bind_of_ok s.peekNext_cursor _
  | advance => exact bind_cursor s.advance_cursor _
  | accept expected => exact bind_cursor (s.accept_cursor expected) _
  | skipTo expected => exact bind_of_ok (s.skipTo_cursor expected) _
  | string => exact bind_cursor s.string_cursor _
  | number => exact bind_cursor (number_cursor rfl) _
  | identifier => exact bind_cursor s.identifier_cursor _
  | scanToken => exact bind_cursor (scanToken_cursor fun _ _ _ _ => rfl) _
  | addToken kind literal => exact bind_of_ok (s.addToken_cursor kind literal) _
  | mark => rfl
  | scanTokens => exact bind_cursor (scanTokens_cursor (fun _ _ => rfl) s) _

/-- A cursor stands where the scanner does after every history of calls. -/
theorem performAll_cursor (s : Scanner) (history : List Call) :
    s.cursor.performAll Numeral.read? history = (s.performAll history).cursor := by
  induction history generalizing s with
  | nil => rfl
  | cons c later ih =>
      have hcall := s.perform_cursor c
      rw [Cursor.performAll, performAll, List.foldl_cons, ← performAll, call]
      cases hresult : perform c s with
      | ok answer next =>
          rw [hresult] at hcall
          simp only [hcall, seen]
          exact ih next
      | error error next =>
          rw [hresult] at hcall
          simp only [hcall, seen]
          exact ih next

end Scanner
end Lox
