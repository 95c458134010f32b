import Lox.Proofs.Lexeme.Lookahead
import Lox.Proofs.Scanner.Reports

/-!
# Scans of joined lines

A line feed ends every lexeme but a string that is open, as the end of the text does, and a
scan that goes on behind it remembers nothing but the line.  So a scan of two texts with a
line feed between them finds what the scans of both find, the second one further down.

Main results:

- Theorems {lit}`Piece.tokens_moveDown` and {lit}`Piece.faults_moveDown`: the same pieces
  further down have the same tokens and faults further down.
- Theorem {lit}`scanTokens_joined`: the scan of two texts with a line feed between them.
-/

namespace Lox

/-! ## Moving down -/

/-- The same token, the given count of lines further down. -/
def Token.moveDown (lines : Nat) (token : Token) : Token :=
  { token with line := token.line + lines }

/-- The same fault, the given count of lines further down. -/
def Fault.moveDown (lines : Nat) (fault : Fault) : Fault :=
  { fault with line := fault.line + lines }

namespace Piece

/-- A piece further down has its token further down. -/
theorem token?_moveDown (piece : Piece) (line lines : Nat) :
    piece.token? (line + lines) = (piece.token? line).map (Token.moveDown lines) := by
  rw [token?, token?, Option.map_map]
  rfl

theorem fault?_moveDown (piece : Piece) (line lines : Nat) :
    piece.fault? (line + lines) = (piece.fault? line).map (Fault.moveDown lines) := by
  unfold fault?
  split <;> rfl

/-- The same pieces further down have the same tokens further down. -/
theorem tokens_moveDown (line lines : Nat) (pieces : List Piece) :
    tokens (line + lines) pieces = (tokens line pieces).map (Token.moveDown lines) := by
  induction pieces generalizing line with
  | nil => rfl
  | cons piece more ih =>
      have hline : line + lines + piece.text.count '\n' =
          line + piece.text.count '\n' + lines := by omega
      rw [tokens, tokens, hline, token?_moveDown, ih, List.map_append]
      cases piece.token? (line + piece.text.count '\n') <;> rfl

/-- The same pieces further down have the same faults further down. -/
theorem faults_moveDown (line lines : Nat) (pieces : List Piece) :
    faults (line + lines) pieces = (faults line pieces).map (Fault.moveDown lines) := by
  induction pieces generalizing line with
  | nil => rfl
  | cons piece more ih =>
      have hline : line + lines + piece.text.count '\n' =
          line + piece.text.count '\n' + lines := by omega
      rw [faults, faults, hline, fault?_moveDown, ih, List.map_append]
      cases piece.fault? line <;> rfl

/-- Where no fault is an open string, no piece is one. -/
theorem shape_ne_unterminated {line : Nat} {pieces : List Piece}
    (hclosed : ∀ fault ∈ faults line pieces, fault.cause ≠ .unterminatedString) :
    ∀ piece ∈ pieces, piece.shape ≠ .unterminated := by
  induction pieces generalizing line with
  | nil => simp
  | cons piece more ih =>
      rw [faults, List.forall_mem_append] at hclosed
      rw [List.forall_mem_cons]
      refine ⟨?_, ih hclosed.2⟩
      intro hopen
      apply hclosed.1 ⟨line, .unterminatedString⟩
      · simp [fault?, hopen]
      · rfl

/-! ## The line feed between two texts -/

variable {upper lower : List Char}

/-- The tokens of two texts with a line feed between them are those of both, the second ones
moved down. -/
theorem tokens_joined (hclosed : ∀ piece ∈ split upper, piece.shape ≠ .unterminated) :
    tokens 1 (split (upper ++ '\n' :: lower)) =
      tokens 1 (split upper) ++
        (tokens 1 (split lower)).map (Token.moveDown (1 + upper.count '\n')) := by
  have hline : 1 + upper.count '\n' + ['\n'].count '\n' = 1 + (1 + upper.count '\n') := by
    simp [Nat.add_comm]
  rw [split_append_lineFeed hclosed, tokens_append, join_split, tokens, hline,
    tokens_moveDown]
  rfl

theorem faults_joined (hclosed : ∀ piece ∈ split upper, piece.shape ≠ .unterminated) :
    faults 1 (split (upper ++ '\n' :: lower)) =
      faults 1 (split upper) ++
        (faults 1 (split lower)).map (Fault.moveDown (1 + upper.count '\n')) := by
  have hline : 1 + upper.count '\n' + ['\n'].count '\n' = 1 + (1 + upper.count '\n') := by
    simp [Nat.add_comm]
  rw [split_append_lineFeed hclosed, faults_append, join_split, faults, hline,
    faults_moveDown]
  rfl

end Piece

namespace Scanner

/-- The lexemes of laps are the texts of the pieces. -/
theorem map_lexeme_laps (s : Scanner) :
    (laps s).map lexeme = (Piece.split s.rest).map Piece.text := by
  induction s using lap_induction with
  | done s hrest => rw [laps_of_nil hrest, hrest, Piece.split_nil, List.map_nil, List.map_nil]
  | lap s c more hrest ih =>
      rw [laps_of_cons hrest, List.map_cons, ih, lexeme_take_first hrest, rest_take, hrest,
        Piece.split_cons, List.map_cons]

/-- The end of joined texts is the end of the lower one, further down. -/
theorem endToken_joined (upper lower : List Char) :
    endToken (upper ++ '\n' :: lower) =
      (endToken lower).moveDown (1 + upper.count '\n') := by
  simp only [endToken, Token.moveDown, List.count_append, List.count_cons_self,
    Token.mk.injEq, true_and]
  omega

/-- Unless a string is open at the end of the upper text, a scan of two texts with a line
feed between them yields the tokens of the upper one and behind them those of the lower one,
further down by the lines of the upper one, and the same goes for what it reports.  No lexeme
lies on both sides of the line feed. -/
theorem scanTokens_joined {upper : String}
    (hclosed : ∀ fault ∈ (scan upper).2, fault.cause ≠ .unterminatedString)
    (lower : String) :
    ∃ tokens last,
      (scan upper).1 = (tokens ++ [endToken upper.toList]).toArray ∧
        scanTokens (ofSource (upper ++ "\n" ++ lower)) =
          .ok (tokens ++ (scan lower).1.toList.map
            (Token.moveDown (1 + upper.toList.count '\n'))).toArray last ∧
        last.faults = (scan upper).2 ++
          (scan lower).2.map (Fault.moveDown (1 + upper.toList.count '\n')) ∧
        (laps (ofSource (upper ++ "\n" ++ lower))).map lexeme =
          (laps (ofSource upper)).map lexeme ++
            ['\n'] :: (laps (ofSource lower)).map lexeme ∧
        ∀ r : Reporter, (r.scan (upper ++ "\n" ++ lower)).2 =
          (r.scan upper).2.reportFaults
            ((scan lower).2.map (Fault.moveDown (1 + upper.toList.count '\n'))) := by
  have hpieces : ∀ piece ∈ Piece.split upper.toList, piece.shape ≠ .unterminated := by
    apply @Piece.shape_ne_unterminated 1
    simpa [scan_eq] using hclosed
  have hsource : (upper ++ "\n" ++ lower).toList = upper.toList ++ '\n' :: lower.toList := by
    simp
  rcases scanTokens_ofText (upper ++ "\n" ++ lower).toList with
    ⟨last, hscan, htokens, hfaults⟩
  rw [hsource, Piece.tokens_joined hpieces, endToken_joined] at htokens
  rw [hsource, Piece.faults_joined hpieces] at hfaults
  have hjoined : last.faults = (scan upper).2 ++
      (scan lower).2.map (Fault.moveDown (1 + upper.toList.count '\n')) := by
    simp [hfaults, scan_eq]
  refine ⟨Piece.tokens 1 (Piece.split upper.toList), last, ?_, ?_, hjoined, ?_, ?_⟩
  · rw [scan_eq]
  · rw [ofSource, hscan, htokens, scan_eq]
    simp
  · have hrest (source : String) : (ofSource source).rest = source.toList := rfl
    rw [map_lexeme_laps, map_lexeme_laps, map_lexeme_laps, hrest, hrest, hrest, hsource,
      Piece.split_append_lineFeed hpieces, List.map_append, List.map_cons]
  · intro r
    rw [r.scan_of_scanTokens hscan, hjoined, Reporter.scan_eq_reportFaults,
      Reporter.reportFaults_append]

/-- A point, a comment and a stray character end with their line, whatever the next line
begins with. -/
theorem scanTokens_joined_point :
    (∀ fault ∈ (scan "~1.").2, fault.cause ≠ .unterminatedString) ∧
      ∃ tokens last,
        (scan "~1.").1 = (tokens ++ [endToken "~1.".toList]).toArray ∧
          scanTokens (ofSource ("~1." ++ "\n" ++ "5//\n\x22")) =
            .ok (tokens ++ (scan "5//\n\x22").1.toList.map (Token.moveDown 1)).toArray last ∧
          last.faults.toList =
            [⟨1, .unexpectedCharacter⟩, ⟨3, .unterminatedString⟩] := by
  have hclosed : ∀ fault ∈ (scan "~1.").2, fault.cause ≠ .unterminatedString := by
    decide +kernel
  rcases scanTokens_joined hclosed "5//\n\x22" with ⟨tokens, last, hupper, hscan, hfaults, -⟩
  refine ⟨hclosed, tokens, last, hupper, hscan, ?_⟩
  rw [hfaults]
  decide +kernel

end Scanner
end Lox
