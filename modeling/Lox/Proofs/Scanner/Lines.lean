import Lox.Proofs.Scanner.Outcome

/-!
# Lines

The line of a scanner is that of its place in the source: one more than the line feeds
before it.  Each lap adds the line feeds of its own lexeme, whether they stand between
tokens, in a string, or in a string that is not closed; a comment ends before its own.

Main results:

- Theorem {lit}`line_of_laps`: after each lap the scanner is on the line of its place.
- Theorem {lit}`tokens_pairwise_line_le`: the lines of tokens never decrease.
- Theorem {lit}`token_lines_count_lineFeeds`: every token of a scan is on the line on
  which its lexeme ends, and the end of the text on the last line.
-/

namespace Lox

/-! ## The lines of a text -/

/-- The line of a place in a text: lines are counted from one, and each line feed before
the place begins a new one. -/
def lineAt (text : List Char) (place : Nat) : Nat :=
  1 + (text.take place).count '\n'

/-- A later place is on no earlier line. -/
theorem lineAt_mono (text : List Char) {place later : Nat} (hle : place ≤ later) :
    lineAt text place ≤ lineAt text later := by
  have hbegins : text.take place <+: text.take later := List.take_prefix_take_left hle
  have hcount := hbegins.sublist.count_le '\n'
  simp only [lineAt]
  omega

/-- Behind a piece of the text the line has grown by the line feeds of that piece. -/
theorem lineAt_add {text piece rest : List Char} {place : Nat}
    (hdrop : text.drop place = piece ++ rest) :
    lineAt text (place + piece.length) = lineAt text place + piece.count '\n' := by
  rw [lineAt, lineAt, List.take_add, hdrop, List.take_left, List.count_append, Nat.add_assoc]

namespace Piece

/-- The line on which the next piece begins is that of its place. -/
theorem lineAt_of_split {text : List Char} {earlier later : List Piece}
    (hsplit : split text = earlier ++ later) :
    lineAt text (join earlier).length = 1 + (join earlier).count '\n' := by
  rw [lineAt, (append_of_split hsplit).1]

/-! ## The lines of tokens -/

/-- Tokens are on the lines of their pieces. -/
theorem line_of_mem_tokens {line : Nat} {pieces : List Piece} {token : Token}
    (hmem : token ∈ tokens line pieces) :
    line ≤ token.line ∧ token.line ≤ line + (join pieces).count '\n' := by
  rcases List.append_of_mem hmem with ⟨before, after, htokens⟩
  rcases exists_piece_of_tokens htokens with ⟨earlier, piece, later, rfl, -, htoken⟩
  have hline := (of_token? htoken).2
  simp only [join_append, join_cons, List.count_append]
  omega

/-- The lines of tokens never decrease. -/
theorem tokens_pairwise_line_le (line : Nat) (pieces : List Piece) :
    (tokens line pieces).Pairwise fun a b => a.line ≤ b.line := by
  induction pieces generalizing line with
  | nil => exact List.Pairwise.nil
  | cons piece more ih =>
      rw [tokens, List.pairwise_append]
      refine ⟨?_, ih _, ?_⟩
      · cases piece.token? (line + piece.text.count '\n') with
        | none => exact List.Pairwise.nil
        | some token => exact List.pairwise_singleton _ token
      · intro a ha b hb
        have htoken := (of_token? (Option.mem_toList.1 ha)).2
        have hlater := (line_of_mem_tokens hb).1
        omega

end Piece

namespace Scanner

/-! ## The lines of laps -/

/-- After taking pieces the scanner is on the line of its place. -/
theorem line_eq_lineAt {source : List Char} {earlier later : List Piece}
    (hpieces : Piece.split source = earlier ++ later) :
    ((ofText source).takeAll earlier).line =
      lineAt source ((ofText source).takeAll earlier).current := by
  have hplace : ((ofText source).takeAll earlier).current = (Piece.join earlier).length := by
    rw [current_takeAll]
    exact Nat.zero_add _
  rw [hplace, Piece.lineAt_of_split hpieces, line_takeAll]
  rfl

/-- After each lap the scanner is on the line of its place; the lap has counted the line
feeds of its own lexeme. -/
theorem line_of_laps {source : List Char} {earlier later : List Scanner} {lap : Scanner}
    (hsplit : laps (ofText source) = earlier ++ lap :: later) :
    lap.line = lineAt source lap.current ∧
      lap.line = (earlier.getLastD (ofText source)).line + lap.lexeme.count '\n' := by
  rcases exists_pieces_of_laps hsplit with ⟨before, piece, after, hpieces, hlast, rfl⟩
  constructor
  · have htaken : ((ofText source).takeAll before).take piece =
        (ofText source).takeAll (before ++ [piece]) := (takeAll_append _ before [piece]).symm
    have hbehind : Piece.split source = (before ++ [piece]) ++ after := by
      rw [List.append_assoc]
      exact hpieces
    rw [htaken]
    exact line_eq_lineAt hbehind
  · rw [hlast, lexeme_of_pieces hpieces]
    rfl

/-- Every token comes from a lap, which has added it behind the tokens before it, and is on
the line of the place that the lap has reached. -/
theorem exists_lap_of_tokens {source : List Char} {before after : List Token} {token : Token}
    (htokens : Piece.tokens 1 (Piece.split source) = before ++ token :: after) :
    ∃ earlier lap later, laps (ofText source) = earlier ++ lap :: later ∧
      (earlier.getLastD (ofText source)).tokens.toList = before ∧
      lap.tokens.toList = before ++ [token] ∧
      token.lexeme.toList = lap.lexeme ∧
      token.line = lineAt source lap.current := by
  rcases Piece.exists_piece_of_tokens htokens with
    ⟨pieces, piece, more, hpieces, hbefore, htoken⟩
  rcases exists_laps_of_pieces (s := ofText source) hpieces with ⟨earlier, later, hlaps, hlast⟩
  rcases Piece.of_token? htoken with ⟨hlexeme, hline⟩
  have hearlier : ((ofText source).takeAll pieces).tokens.toList = before := by
    rw [toList_tokens_takeAll, ← hbefore]
    rfl
  have hstart : ((ofText source).takeAll pieces).line =
      1 + (Piece.join pieces).count '\n' := line_takeAll _ pieces
  refine ⟨earlier, _, later, hlaps, ?_, ?_, ?_, ?_⟩
  · rw [hlast, hearlier]
  · rw [← hstart] at htoken
    simp only [take, htoken, Array.toList_append, hearlier, Option.toList_toArray,
      Option.toList_some]
  · rw [hlexeme, String.toList_ofList, lexeme_of_pieces (s := ofText source) hpieces]
  · rw [hline, ← (line_of_laps hlaps).1, ← hstart]
    rfl

/-- Every token of a scan is on the line on which the lexeme of its lap ends, and the end
of the text is on the last line.  Every line feed of the source is counted once, by the
lap in whose lexeme it stands. -/
theorem token_lines_count_lineFeeds (source : String) :
    ∃ tokens last,
      scanTokens (ofSource source) =
        .ok (tokens ++
          [Token.mk .endOfText "" .nil (1 + source.toList.count '\n')]).toArray last ∧
      (∀ before token after, tokens = before ++ token :: after →
        ∃ earlier lap later, laps (ofSource source) = earlier ++ lap :: later ∧
          (earlier.getLastD (ofSource source)).tokens.toList = before ∧
          lap.tokens.toList = before ++ [token] ∧
          token.lexeme.toList = lap.lexeme ∧
          token.line = lineAt source.toList lap.current) ∧
      (∀ earlier lap later, laps (ofSource source) = earlier ++ lap :: later →
        lap.line = lineAt source.toList lap.current ∧
          lap.line = (earlier.getLastD (ofSource source)).line + lap.lexeme.count '\n') ∧
      (tokens ++ [Token.mk .endOfText "" .nil (1 + source.toList.count '\n')]).Pairwise
        fun a b => a.line ≤ b.line := by
  rcases scanTokens_ofText source.toList with ⟨last, hscan, htokens, -⟩
  rw [htokens] at hscan
  refine ⟨Piece.tokens 1 (Piece.split source.toList), last, hscan, ?_, ?_, ?_⟩
  · intro before token after htokens
    exact exists_lap_of_tokens htokens
  · intro earlier lap later hsplit
    exact line_of_laps hsplit
  · rw [List.pairwise_append]
    refine ⟨Piece.tokens_pairwise_line_le 1 _, List.pairwise_singleton _ _, ?_⟩
    intro token hmem other hother
    have hle := (Piece.line_of_mem_tokens hmem).2
    rw [Piece.join_split] at hle
    rw [List.mem_singleton.1 hother]
    exact hle

/-- A string is on the line of its closing quote. -/
example : (scan "1\n\"a\nb\" // c\n+").1.toList.map (·.line) = [1, 3, 4, 4] := by
  decide +kernel

end Scanner
end Lox
