import Lox.Proofs.Lexeme.Lookahead
import Lox.Proofs.Scanner.Reports

/-!
# Scans of a text that is continued

A lap looks at two characters behind its lexeme at most.  So the laps over the beginning of
a source do the same in every continuation of the source: they take the same lexemes at the
same places, and have found the same tokens and faults.

Main results:

- Theorem {lit}`trail_progress`: laps over the same pieces make the same progress, whatever
  text follows these pieces.
- Theorem {lit}`laps_append_stable`: two characters behind a lexeme settle its lap, and one
  does unless it is a point behind a whole number.
-/

namespace Lox

/-- The reports of the first faults come first. -/
theorem Reporter.errors_reportFaults_isPrefix (r : Reporter) {few many : Array Fault}
    (hbegins : few.toList <+: many.toList) :
    (r.reportFaults few).errors.toList <+: (r.reportFaults many).errors.toList := by
  rcases hbegins with ⟨more, hmore⟩
  have hmany : many = (few.toList ++ more).toArray := by simp [hmore]
  have hfew : few = few.toList.toArray := rfl
  rw [hmany, hfew, reportFaults_eq, reportFaults_eq]
  simp

namespace Scanner

/-! ## Progress -/

/-- What a run has reached, apart from the source that it runs over: the last lexeme with
its places, the line behind it, and all tokens and faults up to there. -/
structure Progress where
  start : Nat
  current : Nat
  lexeme : List Char
  line : Nat
  tokens : Array Token
  faults : Array Fault

/-- The progress of a scanner. -/
def progress (s : Scanner) : Progress where
  start := s.start
  current := s.current
  lexeme := s.lexeme
  line := s.line
  tokens := s.tokens
  faults := s.faults

/-- A lap over the same piece makes the same progress. -/
theorem progress_take {s other : Scanner} {piece : Piece}
    (hsame : s.progress = other.progress) (hbegins : piece.text <+: s.rest)
    (hother : piece.text <+: other.rest) :
    (s.take piece).progress = (other.take piece).progress := by
  simp only [progress, Progress.mk.injEq] at hsame
  rcases hsame with ⟨-, hcurrent, -, hline, htokens, hfaults⟩
  simp only [progress, Progress.mk.injEq, lexeme_take hbegins, lexeme_take hother,
    current_take, hcurrent]
  simp [take, hcurrent, hline, htokens, hfaults]

/-- Laps over the same pieces make the same progress, whatever text follows these pieces. -/
theorem trail_progress {s other : Scanner} {pieces : List Piece}
    (hsame : s.progress = other.progress) (hbegins : Piece.join pieces <+: s.rest)
    (hother : Piece.join pieces <+: other.rest) :
    (trail s pieces).map progress = (trail other pieces).map progress := by
  induction pieces generalizing s other with
  | nil => rfl
  | cons piece more ih =>
      rw [Piece.join_cons] at hbegins hother
      have hpiece := (List.prefix_append _ _).trans hbegins
      have hpiece' := (List.prefix_append _ _).trans hother
      have htake := progress_take hsame hpiece hpiece'
      have hdrop {rest : List Char} (h : piece.text ++ Piece.join more <+: rest) :
          Piece.join more <+: rest.drop piece.text.length := by
        rcases h with ⟨after, rfl⟩
        simp
      rw [trail, trail, List.map_cons, List.map_cons, htake,
        ih htake (by simpa using hdrop hbegins) (by simpa using hdrop hother)]

/-! ## What is found stays found -/

/-- The tokens and the faults of the first pieces of a text begin those of a scan. -/
theorem found_isPrefix_scanTokens {text : List Char} {earlier later : List Piece}
    (hsplit : Piece.split text = earlier ++ later) :
    ∃ last, scanTokens (ofText text) = .ok last.tokens last ∧
      ((ofText text).takeAll earlier).tokens.toList <+: last.tokens.toList ∧
      ((ofText text).takeAll earlier).faults.toList <+: last.faults.toList := by
  rcases scanTokens_ofText text with ⟨last, hscan, htokens, hfaults⟩
  refine ⟨last, hscan, ?_, ?_⟩
  · rw [htokens, hsplit, Piece.tokens_append, toList_tokens_takeAll]
    simp [ofText]
  · rw [hfaults, hsplit, Piece.faults_append, toList_faults_takeAll]
    simp [ofText]

/-! ## Laps in a continuation -/

/-- A number without a point consists of digits. -/
theorem digits_of_number {text : List Char} (haccepts : Lexeme.Shape.number.Accepts text)
    (hpoint : '.' ∉ text) : Lexeme.Digits text := by
  rcases haccepts with hdigits | ⟨whole, part, rfl, -, -⟩
  · exact hdigits
  · simp at hpoint

/-- What follows a piece settles it if it has two characters, or one that is no point behind
a whole number. -/
theorem settled_of_split {text : List Char} {earlier later : List Piece} {piece : Piece}
    (hsplit : Piece.split text = earlier ++ piece :: later)
    (hahead : (Piece.join (earlier ++ [piece])).length + 2 ≤ text.length ∨
      ((Piece.join (earlier ++ [piece])).length + 1 = text.length ∧
        ¬(Lexeme.Digits piece.text ∧ text.getLast? = some '.'))) :
    Lexeme.Settled piece.shape piece.text (Piece.join later) := by
  have hjoin := congrArg Piece.join hsplit
  rw [Piece.join_split, ← List.singleton_append, ← List.append_assoc,
    Piece.join_append] at hjoin
  have hlength := congrArg List.length hjoin
  rw [List.length_append] at hlength
  rcases hahead with hlong | ⟨hone, hplain⟩
  · exact Or.inl (by omega)
  · refine Or.inr ⟨by omega, ?_⟩
    rintro ⟨hnumber, hpoint, hrest⟩
    apply hplain
    constructor
    · rcases Piece.first_of_split hsplit with ⟨c, rest, -, rfl⟩
      exact digits_of_number (Piece.accepts_of_shape hnumber (by decide) (by decide)) hpoint
    · rw [hjoin, hrest, List.getLast?_concat]

/-- The laps over a settled piece and the pieces before it make the same progress in every
continuation of the text. -/
theorem exists_laps_append {text : List Char} {earlier later : List Piece} {piece : Piece}
    (hsplit : Piece.split text = earlier ++ piece :: later)
    (hsettled : Lexeme.Settled piece.shape piece.text (Piece.join later))
    (more : List Char) :
    ∃ before lap after last,
      laps (ofText (text ++ more)) = before ++ lap :: after ∧
        before.map progress = (trail (ofText text) earlier).map progress ∧
        lap.progress = (((ofText text).takeAll earlier).take piece).progress ∧
        scanTokens (ofText (text ++ more)) = .ok last.tokens last ∧
        lap.tokens.toList <+: last.tokens.toList ∧
        lap.faults.toList <+: last.faults.toList := by
  rcases Piece.exists_split_append hsplit hsettled more with ⟨after, hafter⟩
  have hjoin := congrArg Piece.join hsplit
  have hbegins : Piece.join (earlier ++ [piece]) <+: text :=
    ⟨Piece.join later, by simpa using hjoin.symm⟩
  have hprogress := @trail_progress (ofText (text ++ more)) (ofText text)
    (earlier ++ [piece]) rfl (hbegins.trans (List.prefix_append text more)) hbegins
  simp only [trail_append, trail, List.map_append, List.map_cons, List.map_nil] at hprogress
  rcases List.append_inj' hprogress (by simp) with ⟨hbefore, hlap⟩
  have hfound := hafter
  rw [← List.singleton_append, ← List.append_assoc] at hfound
  rcases found_isPrefix_scanTokens hfound with ⟨last, hscan, htokens, hfaults⟩
  rw [takeAll_append] at htokens hfaults
  refine ⟨trail (ofText (text ++ more)) earlier,
    ((ofText (text ++ more)).takeAll earlier).take piece,
    trail (((ofText (text ++ more)).takeAll earlier).take piece) after, last, ?_, hbefore,
    ?_, hscan, htokens, hfaults⟩
  · have hrest : (ofText (text ++ more)).rest = text ++ more := rfl
    rw [laps_eq_trail, hrest, hafter, trail_append, trail]
  · simpa using hlap

/-- A lap that ends two characters before the end of a source or earlier, or one character
before it unless a point stands there behind a whole number, is a lap over every
continuation of the source: it makes the same progress, and so do the laps before it.  What
they have found begins what a scan of the continuation finds and reports. -/
theorem laps_append_stable {source : String} {before after : List Scanner} {lap : Scanner}
    (hsplit : laps (ofSource source) = before ++ lap :: after)
    (hahead : lap.current + 2 ≤ source.length ∨
      (lap.current + 1 = source.length ∧
        ¬(Lexeme.Digits lap.lexeme ∧ source.toList.getLast? = some '.')))
    (more : String) :
    ∃ before' lap' after' last,
      laps (ofSource (source ++ more)) = before' ++ lap' :: after' ∧
        before'.map progress = before.map progress ∧ lap'.progress = lap.progress ∧
        scanTokens (ofSource (source ++ more)) = .ok last.tokens last ∧
        lap.tokens.toList <+: last.tokens.toList ∧
        lap.faults.toList <+: last.faults.toList ∧
        ∀ r : Reporter, (r.reportFaults lap.faults).errors.toList <+:
          (r.scan (source ++ more)).2.errors.toList := by
  rw [laps_eq_trail] at hsplit
  rcases exists_pieces_of_trail hsplit with ⟨earlier, piece, later, hpieces, rfl, rfl⟩
  rw [lexeme_of_pieces hpieces] at hahead
  have hpieces' : Piece.split source.toList = earlier ++ piece :: later := hpieces
  have hplace : (((ofSource source).takeAll earlier).take piece).current =
      (Piece.join (earlier ++ [piece])).length := by
    have hstart : (ofSource source).current = 0 := rfl
    simp [hstart]
  rw [hplace, ← String.length_toList] at hahead
  rcases exists_laps_append hpieces' (settled_of_split hpieces' hahead) more.toList with
    ⟨before, lap, after, last, hlaps, hbefore, hlap, hscan, htokens, hfaults⟩
  have hsource : ofSource (source ++ more) = ofText (source.toList ++ more.toList) := by
    rw [ofSource, String.toList_append]
  have hsame := hlap
  simp only [progress, Progress.mk.injEq] at hsame
  rcases hsame with ⟨-, -, -, -, hsametokens, hsamefaults⟩
  rw [hsametokens] at htokens
  rw [hsamefaults] at hfaults
  rw [← hsource] at hlaps hscan
  refine ⟨before, lap, after, last, hlaps, hbefore, hlap, hscan, htokens, hfaults, ?_⟩
  intro r
  rw [r.scan_of_scanTokens hscan]
  exact r.errors_reportFaults_isPrefix hfaults

/-- A number with a fraction is settled by the point behind it: it takes no second one. -/
theorem laps_append_stable_fraction :
    ∃ lap after,
      laps (ofSource "1.5.") = lap :: after ∧ lap.lexeme = ['1', '.', '5'] ∧
        lap.current + 1 = "1.5.".length ∧ "1.5.".toList.getLast? = some '.' ∧
        ∃ lap' after' last,
          laps (ofSource ("1.5." ++ "2")) = lap' :: after' ∧ lap'.progress = lap.progress ∧
            scanTokens (ofSource ("1.5." ++ "2")) = .ok last.tokens last ∧
            lap.tokens.toList <+: last.tokens.toList := by
  have hlaps := laps_of_cons (rfl : (ofSource "1.5.").rest = '1' :: ['.', '5', '.'])
  have hlexeme : ((ofSource "1.5.").take (Piece.first '1' ['.', '5', '.'])).lexeme =
      ['1', '.', '5'] := by decide
  have hcurrent : ((ofSource "1.5.").take (Piece.first '1' ['.', '5', '.'])).current + 1 =
      "1.5.".length := by decide
  have hfraction : ¬Lexeme.Digits ['1', '.', '5'] := fun hdigits =>
    Lexeme.not_digit_point (hdigits.2 '.' (by decide))
  rw [← hlexeme] at hfraction
  rcases @laps_append_stable _ [] _ _ hlaps
      (Or.inr ⟨hcurrent, fun hpoint => hfraction hpoint.1⟩) "2" with
    ⟨before, lap, after, last, hmore, hbefore, hlap, hscan, htokens, -⟩
  rw [List.map_nil, List.map_eq_nil_iff] at hbefore
  subst hbefore
  exact ⟨_, _, hlaps, hlexeme, hcurrent, rfl, lap, after, last, hmore, hlap, hscan, htokens⟩

/-- A whole number is not settled by a point: it takes a fraction. -/
example : ((laps (ofSource "1.")).map lexeme, (laps (ofSource "1.5")).map lexeme) =
    ([['1'], ['.']], [['1', '.', '5']]) := by
  decide +kernel

end Scanner
end Lox
