import Lox.Proofs.Scanner.Laps

/-!
# Segmentation

The laps of a scan cut the source into lexemes that follow one another without a gap.
Every cut is the one of longest match in what is left of the source.

Main results:

- Theorem {lit}`laps_cut_source`: the lexemes of a scan are the segmentation of the
  source by longest match.
-/

namespace Lox
namespace Scanner

/-- The lexemes of a scan make up the source, and each of them is cut by longest match
off the source from its own place on. -/
theorem laps_cut_source (source : String) :
    scanAll (ofSource source) =
        .ok () ((laps (ofSource source)).getLastD (ofSource source)) ∧
      ((laps (ofSource source)).map lexeme).flatten = source.toList ∧
      ∀ before lap after, laps (ofSource source) = before ++ lap :: after →
        lap.start = (before.map lexeme).flatten.length ∧
          lap.current = lap.start + lap.lexeme.length ∧
          lap.lexeme = (source.toList.drop lap.start).take (lap.current - lap.start) ∧
          lap.lexeme ≠ [] ∧
          ∃ shape, Lexeme.Cut shape (source.toList.drop lap.start) lap.lexeme := by
  refine ⟨scanAll_eq _, flatten_lexemes _, ?_⟩
  intro before lap after hsplit
  rcases laps_split hsplit with ⟨hsource, hcurrent, -⟩
  rcases lap_of_split hsplit with ⟨c, more, hrest, rfl⟩
  have hleft : source.toList.drop (before.getLastD (ofSource source)).current = c :: more := by
    rw [← hrest, rest_eq_drop_current, hsource]
    rfl
  have hstart : ((before.getLastD (ofSource source)).take (Piece.first c more)).start =
      (before.getLastD (ofSource source)).current := rfl
  have hlexeme := lexeme_take_first hrest
  rw [current_take, hstart, hlexeme, hleft, Nat.add_sub_cancel_left]
  refine ⟨?_, rfl, ?_, ?_, ?_⟩
  · rw [hcurrent]
    exact Nat.zero_add _
  · exact List.prefix_iff_eq_take.1 (Piece.text_first_isPrefix c more)
  · exact List.cons_ne_nil _ _
  · exact ⟨_, Piece.cut_first c more⟩

/-- A number has one point at most, and an operator two characters. -/
example : ((laps (ofSource "1.2.3!==")).map lexeme).map String.ofList =
    ["1.2", ".", "3", "!=", "="] := by
  decide +kernel

end Scanner
end Lox
