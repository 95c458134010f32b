import Lox.Proofs.Scanner.History
import Lox.Proofs.Scanner.JoinedLines

/-!
# Scans that go on from anywhere

A scan that begins in the middle of a text, after any calls, finds in what is left what a
scan of that text alone finds, further down by the lines that have been counted.  Nothing else
of the past matters: neither where the last lexeme began nor what has been found before.

Main results:

- Theorem {lit}`scanTokens_rest`: what a scan finds in the text that is left.
- Theorem {lit}`scanTokens_resumed`: the same after every history of calls.
-/

namespace Lox
namespace Scanner

/-- A scan finds in the text that is left what a scan of that text alone finds, further
down. -/
theorem scanTokens_rest {s : Scanner} (hline : 1 ≤ s.line) :
    ∃ fresh last, scanTokens (ofText s.rest) = .ok fresh.tokens fresh ∧
      scanTokens s = .ok last.tokens last ∧
      last.tokens = s.tokens ++ fresh.tokens.map (Token.moveDown (s.line - 1)) ∧
      last.faults = s.faults ++ fresh.faults.map (Fault.moveDown (s.line - 1)) := by
  -- Both scans take the same pieces, one from the first line on and one from the given line.
  have hstart : s.line = 1 + (s.line - 1) := by omega
  have hend : (s.takeAll (Piece.split s.rest)).line =
      1 + s.rest.count '\n' + (s.line - 1) := by
    rw [line_takeAll, Piece.join_split]
    omega
  have htokens := Piece.tokens_moveDown 1 (s.line - 1) (Piece.split s.rest)
  have hfaults := Piece.faults_moveDown 1 (s.line - 1) (Piece.split s.rest)
  rw [← hstart] at htokens hfaults
  rcases scanTokens_ofText s.rest with ⟨fresh, hfresh, hfreshtokens, hfreshfaults⟩
  refine ⟨fresh, (s.takeAll (Piece.split s.rest)).addEnd, hfresh, scanTokens_eq_takeAll s,
    ?_, ?_⟩
  · rw [tokens_addEnd, toList_tokens_takeAll, hend, htokens, hfreshtokens]
    simp [endToken, Token.moveDown]
  · have hlast := toList_faults_takeAll s (Piece.split s.rest)
    rw [hfaults] at hlast
    apply Array.toList_inj.1
    rw [hfreshfaults, Array.toList_append, List.map_toArray]
    exact hlast

/-- After every history of calls, a scan adds to the tokens and to the faults what a scan of
the text that is left finds, on lines that are counted on, and reports the same. -/
theorem scanTokens_resumed (source : String) (history : List Call) :
    ∃ s fresh last, s = (ofSource source).performAll history ∧
      scanTokens (ofText (source.toList.drop s.current)) = .ok fresh.tokens fresh ∧
      scanTokens s = .ok last.tokens last ∧
      last.tokens = s.tokens ++ fresh.tokens.map (Token.moveDown (s.line - 1)) ∧
      last.faults = s.faults ++ fresh.faults.map (Fault.moveDown (s.line - 1)) ∧
      ∀ r : Reporter, r.reportFaults last.faults =
        (r.reportFaults s.faults).reportFaults
          (fresh.faults.map (Fault.moveDown (s.line - 1))) := by
  rcases source_performAll source history with ⟨hsource, hline⟩
  rcases scanTokens_rest hline with ⟨fresh, last, hfresh, hscan, htokens, hfaults⟩
  rw [rest_eq_drop_current, hsource] at hfresh
  refine ⟨_, fresh, last, rfl, hfresh, hscan, htokens, hfaults, ?_⟩
  intro r
  rw [hfaults, Reporter.reportFaults_append]

/-- A scan that goes on behind an opening quote knows of no string. -/
example : (((ofSource "\"a\nb").performAll [.advance, .scanTokens]).tokens.toList.map
    fun token => (token.kind, token.line)) =
      [(.identifier, 1), (.identifier, 2), (.endOfText, 2)] := by
  decide +kernel

end Scanner
end Lox
