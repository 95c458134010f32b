import Lox.Proofs.Lexeme.Edits
import Lox.Proofs.Scanner.JoinedLines

/-!
# Scans of edited sources

Blanks may be put in wherever a lap of a scan ends, and comments may be taken out: a scan of
the edited source finds the same tokens and the same faults.  Line feeds that are put in move
what follows them down; a comment leaves its line feed behind, so that taking it out moves
nothing.

Main results:

- Theorem {lit}`scan_insert`: what a scan finds where blanks are put in behind some of the
  pieces of a text.
- Theorem {lit}`scan_uncommented`: a source without its comments is scanned alike.
- Theorem {lit}`scanTokens_trivia`: both for the laps of a scan.
-/

namespace Lox

open Lexeme (Blank)

/-! ## Edits -/

/-- The source with a text put in at a place. -/
def insertAt (source : String) (place : Nat) (text : List Char) : String :=
  String.ofList (source.toList.take place ++ (text ++ source.toList.drop place))

/-- The source without the slices of its scan that begin with two slashes. -/
def uncommented (source : String) : String :=
  String.ofList
    (((Scanner.laps (.ofSource source)).map Scanner.lexeme).filter
      fun slice => ¬['/', '/'] <+: slice).flatten

namespace Piece

/-- The comments are the pieces that begin with two slashes. -/
theorem slashes_isPrefix_iff {text : List Char} {piece : Piece} (hmem : piece ∈ split text) :
    ['/', '/'] <+: piece.text ↔ piece.shape = .comment := by
  rcases List.append_of_mem hmem with ⟨earlier, later, hsplit⟩
  rcases first_of_split hsplit with ⟨c, rest, -, rfl⟩
  constructor
  · intro hslashes
    rcases hslashes.trans (text_first_isPrefix c rest) with ⟨more, hmore⟩
    cases hmore
    rfl
  · intro hcomment
    rcases exists_body_of_comment hcomment with ⟨body, htext, -, -⟩
    exact ⟨body, htext.symm⟩

end Piece

/-- The slices that begin with two slashes are the comments of the source. -/
theorem uncommented_eq (source : String) :
    uncommented source = String.ofList (Piece.withoutComments source.toList) := by
  have hrest : (Scanner.ofSource source).rest = source.toList := rfl
  have hkeep : ∀ piece ∈ Piece.split source.toList,
      decide (¬['/', '/'] <+: piece.text) = decide (piece.shape ≠ .comment) := by
    intro piece hmem
    exact decide_eq_decide.2 (not_congr (Piece.slashes_isPrefix_iff hmem))
  rw [uncommented, Scanner.map_lexeme_laps, hrest, List.filter_map, Piece.withoutComments,
    Piece.join, ← List.filter_congr hkeep, List.flatMap_def]
  rfl

namespace Scanner

/-! ## Scans -/

/-- The scanner between two laps of a scan has taken the pieces before it. -/
theorem exists_pieces_of_append {source : String} {before after : List Scanner}
    (hsplit : laps (ofSource source) = before ++ after) :
    ∃ earlier later, Piece.split source.toList = earlier ++ later ∧
      before.getLastD (ofSource source) = (ofSource source).takeAll earlier := by
  rw [laps_eq_trail] at hsplit
  rcases exists_append_of_trail hsplit with ⟨earlier, later, hpieces, rfl, -⟩
  exact ⟨earlier, later, hpieces, getLastD_trail _ earlier⟩

/-- The end of a text with blanks in it is the end of the text, further down. -/
theorem endToken_insert (upper blanks lower : List Char) :
    endToken (upper ++ (blanks ++ lower)) =
      (endToken (upper ++ lower)).moveDown (blanks.count '\n') := by
  simp only [endToken, Token.moveDown, List.count_append, Token.mk.injEq, true_and]
  omega

/-- What has been found behind some of the pieces of a source, and its place. -/
theorem found_takeAll (source : String) (pieces : List Piece) :
    ((ofSource source).takeAll pieces).current = (Piece.join pieces).length ∧
      ((ofSource source).takeAll pieces).tokens = (Piece.tokens 1 pieces).toArray ∧
      ((ofSource source).takeAll pieces).faults = (Piece.faults 1 pieces).toArray := by
  refine ⟨?_, Array.toList_inj.1 (toList_tokens_takeAll (ofSource source) pieces),
    Array.toList_inj.1 (toList_faults_takeAll (ofSource source) pieces)⟩
  rw [current_takeAll]
  exact Nat.zero_add _

/-- What a scan finds where blanks are put in behind some of the pieces of a text: what has
been found behind them, and what the other pieces have further down. -/
theorem scan_insert {source : String} {earlier later : List Piece} {blanks : List Char}
    {cut : Scanner} (hsplit : Piece.split source.toList = earlier ++ later)
    (hcut : cut = (ofSource source).takeAll earlier) (hblanks : ∀ c ∈ blanks, Blank c) :
    ∃ tokens faults, scan source = (cut.tokens ++ tokens, cut.faults ++ faults) ∧
      scan (insertAt source cut.current blanks) =
        (cut.tokens ++ tokens.map (Token.moveDown (blanks.count '\n')),
          cut.faults ++ faults.map (Fault.moveDown (blanks.count '\n'))) := by
  rcases found_takeAll source earlier with ⟨hplace, hcuttokens, hcutfaults⟩
  rcases Piece.append_of_split hsplit with ⟨hupper, hlower⟩
  rcases Piece.found_insert hsplit hblanks 1 with ⟨htokens, hfaults⟩
  have hsource : Piece.join earlier ++ Piece.join later = source.toList := by
    rw [← Piece.join_append, ← hsplit, Piece.join_split]
  rw [← hcut] at hplace hcuttokens hcutfaults
  refine ⟨(Piece.tokens (1 + (Piece.join earlier).count '\n') later ++
      [endToken source.toList]).toArray,
    (Piece.faults (1 + (Piece.join earlier).count '\n') later).toArray, ?_, ?_⟩
  · rw [scan_eq, hsplit, Piece.tokens_append, Piece.faults_append, hcuttokens, hcutfaults]
    simp
  · rw [scan_eq, hplace, insertAt, String.toList_ofList, hupper, hlower, htokens, hfaults,
      endToken_insert, hsource, Piece.tokens_moveDown, Piece.faults_moveDown, hcuttokens,
      hcutfaults]
    simp

/-- A source without its comments is scanned alike. -/
theorem scan_uncommented (source : String) : scan (uncommented source) = scan source := by
  rcases Piece.found_withoutComments source.toList 1 with ⟨htokens, hfaults, hcount⟩
  rw [uncommented_eq, scan_eq, scan_eq, String.toList_ofList, htokens, hfaults, endToken,
    endToken, hcount]

/-- Blanks may be put in wherever a lap of a scan ends.  The scan finds the same tokens and
faults as before: those of the laps up to there where they were, and all others, the end of
the text among them, further down by the line feeds that are put in.  Where all comments are
taken out, it finds and reports what it did before. -/
theorem scanTokens_trivia (source : String) :
    (∀ before after blanks, laps (ofSource source) = before ++ after →
      (∀ c ∈ blanks, Blank c) →
      ∃ cut tokens faults last,
        cut = before.getLastD (ofSource source) ∧
        scan source = (cut.tokens ++ tokens, cut.faults ++ faults) ∧
        scanTokens (ofSource (insertAt source cut.current blanks)) =
          .ok (cut.tokens ++ tokens.map (Token.moveDown (blanks.count '\n'))) last ∧
        last.faults = cut.faults ++ faults.map (Fault.moveDown (blanks.count '\n')) ∧
        ∀ r : Reporter, (r.scan (insertAt source cut.current blanks)).2 =
          (r.reportFaults cut.faults).reportFaults
            (faults.map (Fault.moveDown (blanks.count '\n')))) ∧
      (∃ last, scanTokens (ofSource (uncommented source)) = .ok (scan source).1 last ∧
        last.faults = (scan source).2) ∧
      ∀ r : Reporter, r.scan (uncommented source) = r.scan source := by
  refine ⟨?_, ?_, ?_⟩
  · intro before after blanks hsplit hblanks
    rcases exists_pieces_of_append hsplit with ⟨earlier, later, hpieces, hcut⟩
    rcases scan_insert hpieces hcut hblanks with ⟨tokens, faults, hsource, hedited⟩
    rcases exists_scanTokens_eq_scan
      (insertAt source (before.getLastD (ofSource source)).current blanks) with
      ⟨last, hscan, hfound⟩
    rw [hfound, Prod.mk.injEq] at hedited
    rcases hedited with ⟨htokens, hfaults⟩
    refine ⟨_, tokens, faults, last, rfl, hsource, ?_, hfaults, ?_⟩
    · rw [hscan, htokens]
    · intro r
      rw [r.scan_of_scanTokens hscan, hfaults, Reporter.reportFaults_append]
  · rcases exists_scanTokens_eq_scan (uncommented source) with ⟨last, hscan, hfound⟩
    rw [scan_uncommented] at hfound
    rw [hfound]
    exact ⟨last, hscan, rfl⟩
  · intro r
    rw [Reporter.scan_eq_reportFaults, scan_uncommented, Reporter.scan_eq_reportFaults]

/-- A space that is put in behind a comment belongs to the comment, and the line feed behind
the space moves the open string down. -/
theorem scanTokens_trivia_comment :
    laps (ofSource "~1.//c\n\"x") =
        (laps (ofSource "~1.//c\n\"x")).take 4 ++ (laps (ofSource "~1.//c\n\"x")).drop 4 ∧
      (∀ c ∈ [' ', '\n'], Blank c) ∧
      ∃ (cut : Scanner) (tokens : Array Token) (faults : Array Fault) (last : Scanner),
        scan "~1.//c\n\"x" = (cut.tokens ++ tokens, cut.faults ++ faults) ∧
        cut.current = 6 ∧ cut.tokens.toList.map Token.lexeme = ["1", "."] ∧
        scanTokens (ofSource "~1.//c \n\n\"x") =
          .ok (cut.tokens ++ tokens.map (Token.moveDown 1)) last ∧
        last.faults = cut.faults ++ faults.map (Fault.moveDown 1) := by
  have hsplit : laps (ofSource "~1.//c\n\"x") =
      (laps (ofSource "~1.//c\n\"x")).take 4 ++ (laps (ofSource "~1.//c\n\"x")).drop 4 :=
    (List.take_append_drop 4 _).symm
  have hblanks : ∀ c ∈ [' ', '\n'], Blank c :=
    List.forall_mem_cons.2 ⟨by decide, List.forall_mem_singleton.2 (by decide)⟩
  rcases (scanTokens_trivia "~1.//c\n\"x").1 _ _ _ hsplit hblanks with
    ⟨cut, tokens, faults, last, hcut, hscan, hedited, hfaults, -⟩
  have hplace : cut.current = 6 := by
    rw [hcut]
    decide +kernel
  have hlexemes : cut.tokens.toList.map Token.lexeme = ["1", "."] := by
    rw [hcut]
    decide +kernel
  have hsource : insertAt "~1.//c\n\"x" 6 [' ', '\n'] = "~1.//c \n\n\"x" := by
    decide +kernel
  rw [hplace, hsource] at hedited
  exact ⟨hsplit, hblanks, cut, tokens, faults, last, hscan, hplace, hlexemes, hedited, hfaults⟩

/-- A slash and a point do not join what stands on the next line. -/
example : (uncommented "1.//c\n5/ //\n/", (scan "1.//c\n5").1.size) =
    ("1.\n5/ \n/", 4) := by
  decide +kernel

end Scanner
end Lox
