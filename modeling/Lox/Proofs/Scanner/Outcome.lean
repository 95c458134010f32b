import Lox.Proofs.Lexeme.Split
import Lox.Proofs.Scanner.TokenStream

/-!
# What a run leaves behind

The laps of a run take the pieces of the text that is left, one after the other.  So the
pieces decide where a run ends, on which line, and what it adds to the tokens and to the
faults.

Main results:

- Theorem {lit}`laps_eq_trail`: the laps of a run take the pieces of the text.
- Theorem {lit}`exists_pieces_of_laps`: each lap takes one piece behind the pieces of the
  laps before it.
- Theorem {lit}`scanTokens_eq_takeAll`: a scan takes all pieces and adds the end of the
  text.
- Theorem {lit}`scanTokens_ofText`: the tokens and the faults of a text are those of its
  pieces.
- Theorem {lit}`yields_iff`: so they decide whether a scan yields given tokens and no fault.
-/

namespace Lox
namespace Scanner

/-! ## Taking pieces one after the other -/

/-- The scanner after laps that take the given pieces. -/
def takeAll (s : Scanner) (pieces : List Piece) : Scanner :=
  pieces.foldl take s

/-- The scanners that these laps leave behind, in order. -/
def trail (s : Scanner) : List Piece → List Scanner
  | [] => []
  | piece :: more => s.take piece :: trail (s.take piece) more

@[simp]
theorem takeAll_cons (s : Scanner) (piece : Piece) (more : List Piece) :
    s.takeAll (piece :: more) = (s.take piece).takeAll more :=
  rfl

theorem takeAll_append (s : Scanner) (earlier later : List Piece) :
    s.takeAll (earlier ++ later) = (s.takeAll earlier).takeAll later :=
  List.foldl_append

@[simp]
theorem source_takeAll (s : Scanner) (pieces : List Piece) :
    (s.takeAll pieces).source = s.source := by
  induction pieces generalizing s with
  | nil => rfl
  | cons piece more ih => exact ih (s.take piece)

/-- The scanner goes on by the length of all pieces. -/
@[simp]
theorem current_takeAll (s : Scanner) (pieces : List Piece) :
    (s.takeAll pieces).current = s.current + (Piece.join pieces).length := by
  induction pieces generalizing s with
  | nil => rfl
  | cons piece more ih =>
      rw [takeAll_cons, ih, current_take, Piece.join_cons, List.length_append, Nat.add_assoc]

@[simp]
theorem rest_takeAll (s : Scanner) (pieces : List Piece) :
    (s.takeAll pieces).rest = s.rest.drop (Piece.join pieces).length := by
  rw [rest_eq_drop_current, rest_eq_drop_current, source_takeAll, current_takeAll,
    List.drop_drop]

@[simp]
theorem line_takeAll (s : Scanner) (pieces : List Piece) :
    (s.takeAll pieces).line = s.line + (Piece.join pieces).count '\n' := by
  induction pieces generalizing s with
  | nil => rfl
  | cons piece more ih =>
      rw [takeAll_cons, ih, Piece.join_cons, List.count_append, ← Nat.add_assoc]
      rfl

@[simp]
theorem toList_tokens_takeAll (s : Scanner) (pieces : List Piece) :
    (s.takeAll pieces).tokens.toList = s.tokens.toList ++ Piece.tokens s.line pieces := by
  induction pieces generalizing s with
  | nil => exact (List.append_nil _).symm
  | cons piece more ih =>
      rw [takeAll_cons, ih, Piece.tokens, ← List.append_assoc]
      congr 1
      simp only [take, Array.toList_append, Option.toList_toArray]

@[simp]
theorem toList_faults_takeAll (s : Scanner) (pieces : List Piece) :
    (s.takeAll pieces).faults.toList = s.faults.toList ++ Piece.faults s.line pieces := by
  induction pieces generalizing s with
  | nil => exact (List.append_nil _).symm
  | cons piece more ih =>
      rw [takeAll_cons, ih, Piece.faults, ← List.append_assoc]
      congr 1
      simp only [take, Array.toList_append, Option.toList_toArray]

/-! ## Trails -/

/-- A trail ends where all pieces are taken. -/
theorem getLastD_trail (s : Scanner) (pieces : List Piece) :
    (trail s pieces).getLastD s = s.takeAll pieces := by
  induction pieces generalizing s with
  | nil => rfl
  | cons piece more ih =>
      rw [trail, List.getLastD_cons]
      exact ih (s.take piece)

/-- A trail over more pieces goes on where the first one ended. -/
theorem trail_append (s : Scanner) (earlier later : List Piece) :
    trail s (earlier ++ later) = trail s earlier ++ trail (s.takeAll earlier) later := by
  induction earlier generalizing s with
  | nil => rfl
  | cons piece earlier ih =>
      rw [List.cons_append, trail, trail, ih, takeAll_cons, List.cons_append]

/-- Where a trail is cut, its pieces are. -/
theorem exists_append_of_trail {s : Scanner} {pieces : List Piece}
    {before after : List Scanner} (hsplit : trail s pieces = before ++ after) :
    ∃ earlier later, pieces = earlier ++ later ∧ before = trail s earlier ∧
      after = trail (s.takeAll earlier) later := by
  induction before generalizing s pieces with
  | nil => exact ⟨[], pieces, rfl, rfl, hsplit.symm⟩
  | cons head before ih =>
      cases pieces with
      | nil => cases hsplit
      | cons piece more =>
          rw [trail, List.cons_append, List.cons.injEq] at hsplit
          rcases ih hsplit.2 with ⟨earlier, later, rfl, rfl, rfl⟩
          refine ⟨piece :: earlier, later, rfl, ?_, rfl⟩
          rw [trail, hsplit.1]

/-- Each scanner of a trail has taken the pieces up to its own. -/
theorem exists_pieces_of_trail {s lap : Scanner} {pieces : List Piece}
    {before after : List Scanner} (hsplit : trail s pieces = before ++ lap :: after) :
    ∃ earlier piece later, pieces = earlier ++ piece :: later ∧
      before = trail s earlier ∧ lap = (s.takeAll earlier).take piece := by
  rcases exists_append_of_trail hsplit with ⟨earlier, later, rfl, rfl, hlater⟩
  cases later with
  | nil => cases hlater
  | cons piece more =>
      rw [trail, List.cons.injEq] at hlater
      exact ⟨earlier, piece, more, rfl, rfl, hlater.1⟩

/-! ## Runs -/

/-- The laps of a run take the pieces of the text that is left. -/
theorem laps_eq_trail (s : Scanner) : laps s = trail s (Piece.split s.rest) := by
  induction s using lap_induction with
  | done s hrest => rw [laps_of_nil hrest, hrest, Piece.split_nil, trail]
  | lap s c more hrest ih =>
      rw [laps_of_cons hrest, ih, rest_take, hrest, Piece.split_cons, trail]

/-- Each lap takes one piece behind the pieces of the laps before it. -/
theorem exists_pieces_of_laps {s lap : Scanner} {before after : List Scanner}
    (hsplit : laps s = before ++ lap :: after) :
    ∃ earlier piece later, Piece.split s.rest = earlier ++ piece :: later ∧
      before.getLastD s = s.takeAll earlier ∧ lap = (s.takeAll earlier).take piece := by
  rw [laps_eq_trail] at hsplit
  rcases exists_pieces_of_trail hsplit with ⟨earlier, piece, later, hpieces, rfl, hlap⟩
  exact ⟨earlier, piece, later, hpieces, getLastD_trail s earlier, hlap⟩

/-- Each piece is taken by a lap. -/
theorem exists_laps_of_pieces {s : Scanner} {earlier later : List Piece} {piece : Piece}
    (hpieces : Piece.split s.rest = earlier ++ piece :: later) :
    ∃ before after, laps s = before ++ (s.takeAll earlier).take piece :: after ∧
      before.getLastD s = s.takeAll earlier := by
  refine ⟨trail s earlier, trail ((s.takeAll earlier).take piece) later, ?_, ?_⟩
  · rw [laps_eq_trail, hpieces, trail_append, trail]
  · exact getLastD_trail s earlier

/-- The lexeme of a lap is the text of its piece. -/
theorem lexeme_of_pieces {s : Scanner} {earlier later : List Piece} {piece : Piece}
    (hpieces : Piece.split s.rest = earlier ++ piece :: later) :
    ((s.takeAll earlier).take piece).lexeme = piece.text := by
  rcases Piece.first_of_split hpieces with ⟨c, rest, hdrop, rfl⟩
  apply lexeme_take_first
  rw [rest_takeAll, hdrop]

/-- After the last lap all of the text is taken. -/
theorem getLastD_laps (s : Scanner) :
    (laps s).getLastD s = s.takeAll (Piece.split s.rest) := by
  rw [laps_eq_trail, getLastD_trail]

/-- A scan never fails: it takes all pieces of the text that is left, and adds the end of
the text. -/
theorem scanTokens_eq_takeAll (s : Scanner) :
    scanTokens s =
      .ok (s.takeAll (Piece.split s.rest)).addEnd.tokens
        (s.takeAll (Piece.split s.rest)).addEnd := by
  rw [scanTokens_eq, getLastD_laps]

/-! ## Scans of a whole text -/

/-- The token that ends the given text. -/
def endToken (text : List Char) : Token :=
  ⟨.endOfText, "", .nil, 1 + text.count '\n'⟩

/-- The tokens and the faults of a text are those of its pieces, and the end of the text
stands on its last line. -/
theorem scanTokens_ofText (text : List Char) :
    ∃ last, scanTokens (ofText text) = .ok last.tokens last ∧
      last.tokens = (Piece.tokens 1 (Piece.split text) ++ [endToken text]).toArray ∧
      last.faults = (Piece.faults 1 (Piece.split text)).toArray := by
  have hline : ((ofText text).takeAll (Piece.split text)).line = 1 + text.count '\n' := by
    rw [line_takeAll, Piece.join_split]
    rfl
  refine ⟨((ofText text).takeAll (Piece.split text)).addEnd, ?_, ?_, ?_⟩
  · exact scanTokens_eq_takeAll (ofText text)
  · rw [tokens_addEnd, toList_tokens_takeAll, hline]
    rfl
  · apply Array.toList_inj.1
    exact toList_faults_takeAll (ofText text) (Piece.split text)

/-- A scan of the text returns the given tokens and the end of the text, and finds no
fault. -/
def Yields (text : List Char) (tokens : List Token) : Prop :=
  ∃ last,
    scanTokens (ofSource (String.ofList text)) =
      .ok (tokens ++ [endToken text]).toArray last ∧
    last.faults = #[]

/-- What a scan yields is decided by the pieces of the text. -/
theorem yields_iff {text : List Char} {tokens : List Token} :
    Yields text tokens ↔
      Piece.tokens 1 (Piece.split text) = tokens ∧
        Piece.faults 1 (Piece.split text) = [] := by
  rcases scanTokens_ofText text with ⟨last, hscan, htokens, hfaults⟩
  rw [htokens] at hscan
  rw [Yields, ofSource, String.toList_ofList, hscan]
  constructor
  · rintro ⟨last', hsame, hnone⟩
    rw [EStateM.Result.ok.injEq] at hsame
    rcases hsame with ⟨harray, rfl⟩
    rw [hfaults] at hnone
    exact ⟨List.append_cancel_right (congrArg Array.toList harray),
      congrArg Array.toList hnone⟩
  · rintro ⟨rfl, hnone⟩
    exact ⟨last, rfl, by rw [hfaults, hnone]⟩

end Scanner

/-- A scan of a source returns what its scanner is left with. -/
theorem exists_scanTokens_eq_scan (source : String) :
    ∃ last, Scanner.scanTokens (.ofSource source) = .ok last.tokens last ∧
      scan source = (last.tokens, last.faults) := by
  rcases Scanner.scanTokens_ofText source.toList with ⟨last, hscan, -, -⟩
  have hsource : Scanner.scanTokens (.ofSource source) = .ok last.tokens last := hscan
  exact ⟨last, hsource, by simp only [scan, hsource]⟩

/-- The tokens and the faults of a source are those of its pieces. -/
theorem scan_eq (source : String) :
    scan source =
      ((Piece.tokens 1 (Piece.split source.toList) ++
          [Scanner.endToken source.toList]).toArray,
        (Piece.faults 1 (Piece.split source.toList)).toArray) := by
  rcases Scanner.scanTokens_ofText source.toList with ⟨last, hscan, htokens, hfaults⟩
  have hsource : Scanner.scanTokens (.ofSource source) = .ok last.tokens last := hscan
  simp only [scan, hsource, htokens, hfaults]

end Lox
