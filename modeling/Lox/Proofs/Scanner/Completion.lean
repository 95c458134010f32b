import Lox.Proofs.Scanner.History
import Lox.Proofs.Scanner.Places

/-!
# Scans that come to their end

A scan begins at any place, and also past the end of the text where failed calls have led.  It
ends after a bounded number of rounds, fails nowhere, and leaves nothing to be scanned, so that
another scan adds no more than another end of the text.

Main results:

- Theorem {lit}`exists_scanTokens`: where a scan ends, and what it adds.
- Theorem {lit}`scanTokens_of_nil`: where nothing is left it adds the end of the text.
- Theorem {lit}`scanTokens_completes`: the same after every history of calls, step by step.
-/

namespace Lox
namespace Scanner

/-- Where nothing is left, a scan adds the end of the text. -/
theorem scanTokens_of_nil {s : Scanner} (hrest : s.rest = []) :
    scanTokens s = .ok s.addEnd.tokens s.addEnd := by
  rw [scanTokens_eq, laps_of_nil hrest]
  rfl

/-- The place at which no text is left. -/
theorem current_add_length_rest (s : Scanner) :
    s.current + s.rest.length = max s.source.length s.current := by
  rw [rest_eq_drop_current, List.length_drop]
  omega

/-- A scan ends at the end of the source or past it, and adds tokens of lexemes and then one
end of the text. -/
theorem exists_scanTokens (s : Scanner) :
    ∃ last found, scanTokens s = .ok last.tokens last ∧ last.rest = [] ∧
      last.current = max s.source.length s.current ∧
      last.tokens.toList =
        s.tokens.toList ++ found ++ [Token.mk .endOfText "" .nil last.line] ∧
      ∀ token ∈ found, token.kind ≠ .endOfText := by
  rcases exists_tokenStream s with ⟨found, hstream, htokens⟩
  refine ⟨((laps s).getLastD s).addEnd, found, scanTokens_eq s, ?_, ?_, ?_, ?_⟩
  · have hrest := s.rest_takeAll (Piece.split s.rest)
    rw [Piece.join_split, List.drop_length] at hrest
    rw [getLastD_laps]
    exact hrest
  · have hcurrent := s.current_takeAll (Piece.split s.rest)
    rw [Piece.join_split, current_add_length_rest] at hcurrent
    rw [getLastD_laps]
    exact hcurrent
  · rw [tokens_addEnd, htokens]
    rfl
  · intro token hmem
    exact (hstream.means token hmem).kind_ne_endOfText

/-- After every history of calls, a scan comes to its end: also a cursor does, whose loops are
bounded, which fails where it reads past the end, and whose conversion may refuse all texts but
plain numerals.  It adds one end of the text behind what it has found, and a second scan adds
nothing else. -/
theorem scanTokens_completes (source : String) (history : List Call) :
    ∃ s last again : Scanner, ∃ found : List Token,
      s = (ofSource source).performAll history ∧
      scanTokens s = .ok last.tokens last ∧
      (∀ convert, ReadsNumbers convert →
        Cursor.scanTokens convert
            ((Cursor.ofSource source).performAll Numeral.read? history) =
          .ok last.tokens last.cursor) ∧
      last.current = max source.length s.current ∧
      last.tokens.toList =
        s.tokens.toList ++ found ++ [Token.mk .endOfText "" .nil last.line] ∧
      (∀ token ∈ found, token.kind ≠ .endOfText) ∧
      scanTokens last = .ok again.tokens again ∧
      again.tokens = last.tokens.push ⟨.endOfText, "", .nil, last.line⟩ ∧
      again.current = last.current ∧ again.line = last.line ∧ again.faults = last.faults := by
  rcases exists_scanTokens ((ofSource source).performAll history) with
    ⟨last, found, hscan, hrest, hcurrent, htokens, hfound⟩
  refine ⟨_, last, last.addEnd, found, rfl, hscan, ?_, ?_, htokens, hfound,
    scanTokens_of_nil hrest, rfl, rfl, rfl, rfl⟩
  · intro convert hconvert
    rw [← cursor_ofSource, performAll_cursor, scanTokens_cursor hconvert, hscan]
    rfl
  · rw [hcurrent, (source_performAll source history).1, String.length_toList]

open Classical in
/-- Behind the first digit of a number the point is a token of its own, and a conversion that
refuses a point before a digit serves. -/
theorem scanTokens_completes_refusing :
    ∃ convert : List Char → Option Binary64, ReadsNumbers convert ∧
      convert ['.', '5'] = none ∧ (Numeral.read? ['.', '5']).isSome = true ∧
      ∃ last : Scanner, last.current = 3 ∧
        Cursor.scanTokens convert
            ((Cursor.ofSource "1.5").performAll Numeral.read? [.advance]) =
          .ok last.tokens last.cursor := by
  have hplain : ReadsNumbers fun text =>
      if Lexeme.Shape.number.Accepts text then Numeral.read? text else none :=
    fun text hnumber => if_pos hnumber
  have hpoint : ¬Lexeme.Shape.number.Accepts ['.', '5'] := by
    rintro (⟨-, hdigits⟩ | ⟨whole, part, htext, ⟨hwhole, hdigits⟩, -⟩)
    · exact absurd (hdigits '.' List.mem_cons_self) (by decide)
    · cases whole with
      | nil => exact hwhole rfl
      | cons c more =>
          rw [List.cons_append, List.cons.injEq] at htext
          exact absurd (hdigits c List.mem_cons_self) (htext.1 ▸ by decide)
  rcases scanTokens_completes "1.5" [.advance] with
    ⟨s, last, again, found, rfl, -, hcursor, hcurrent, -⟩
  refine ⟨_, hplain, if_neg hpoint, by decide +kernel, last, ?_, hcursor _ hplain⟩
  rw [hcurrent]
  decide +kernel

/-- Two failures lead past the end of an empty text, and scans stay there. -/
example :
    let s := (ofSource "").performAll [.advance, .scanToken, .scanTokens, .scanTokens]
    (s.current, s.tokens.toList.map Token.kind) = (2, [.endOfText, .endOfText]) := by
  decide +kernel

end Scanner
end Lox
