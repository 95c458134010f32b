import Lox.Proofs.Lexeme.Meaning
import Lox.Proofs.Scanner.Laps

/-!
# The stream of tokens

The tokens of a scan answer to its laps one by one.  A lap over an operator, a string,
a number or a word adds the token that its lexeme stands for, every other lap adds
none, and the end of the text comes last.

Main results:

- Theorem {lit}`TokenStream.unique`: laps over a text stand for one stream of tokens.
- Theorem {lit}`tokens_follow_laps`: the tokens of a source are the stream of its laps
  and the end of the text.
-/

namespace Lox
namespace Scanner

open Lexeme (Cut Means Shape)

/-! ## Streams -/

/-- The tokens that laps over a text stand for, in order. -/
inductive TokenStream : List Char → List Scanner → List Token → Prop where
  | done : TokenStream [] [] []
  | token {text rest : List Char} {lap : Scanner} {laps : List Scanner}
      {tokens : List Token} {shape : Shape} {kind : Token.Kind} {literal : Value}
      (htext : lap.lexeme ++ rest = text) (hcut : Cut shape text lap.lexeme)
      (htoken : shape.HasToken) (hmeans : Means lap.lexeme kind literal)
      (hstream : TokenStream rest laps tokens) :
      TokenStream text (lap :: laps)
        (⟨kind, String.ofList lap.lexeme, literal, lap.line⟩ :: tokens)
  | silent {text rest : List Char} {lap : Scanner} {laps : List Scanner}
      {tokens : List Token} {shape : Shape} (htext : lap.lexeme ++ rest = text)
      (hcut : Cut shape text lap.lexeme) (htoken : ¬shape.HasToken)
      (hstream : TokenStream rest laps tokens) : TokenStream text (lap :: laps) tokens

/-- Every token of a stream means what its lexeme stands for. -/
theorem TokenStream.means {text : List Char} {laps : List Scanner} {tokens : List Token}
    (hstream : TokenStream text laps tokens) :
    ∀ token ∈ tokens, Means token.lexeme.toList token.kind token.literal := by
  induction hstream with
  | done => exact fun token htoken => absurd htoken List.not_mem_nil
  | token htext hcut htoken hmeans hstream ih =>
      intro token hmem
      rcases List.mem_cons.1 hmem with rfl | hmem
      · rw [String.toList_ofList]
        exact hmeans
      · exact ih token hmem
  | silent htext hcut htoken hstream ih => exact ih

/-- Laps over a text stand for one stream of tokens. -/
theorem TokenStream.unique {text : List Char} {laps : List Scanner}
    {tokens tokens' : List Token} (hstream : TokenStream text laps tokens)
    (hstream' : TokenStream text laps tokens') : tokens = tokens' := by
  induction hstream generalizing tokens' with
  | done =>
      cases hstream'
      rfl
  | token htext hcut htoken hmeans hstream ih =>
      cases hstream' with
      | token htext' hcut' htoken' hmeans' hstream' =>
          have hrest := List.append_cancel_left (htext.trans htext'.symm)
          subst hrest
          rcases Lexeme.means_unique hmeans hmeans' with ⟨rfl, rfl⟩
          rw [ih hstream']
      | silent htext' hcut' htoken' hstream' =>
          have hshape := (Lexeme.cut_unique hcut hcut').1
          exact absurd (hshape ▸ htoken) htoken'
  | silent htext hcut htoken hstream ih =>
      cases hstream' with
      | token htext' hcut' htoken' hmeans' hstream' =>
          have hshape := (Lexeme.cut_unique hcut hcut').1
          exact absurd (hshape ▸ htoken') htoken
      | silent htext' hcut' htoken' hstream' =>
          have hrest := List.append_cancel_left (htext.trans htext'.symm)
          subst hrest
          exact ih hstream'

/-! ## The stream of a scan -/

/-- A run adds the stream of its laps to the tokens that are there. -/
theorem exists_tokenStream (s : Scanner) :
    ∃ tokens, TokenStream s.rest (laps s) tokens ∧
      ((laps s).getLastD s).tokens.toList = s.tokens.toList ++ tokens := by
  induction s using lap_induction with
  | done s hrest =>
      rw [hrest, laps_of_nil hrest]
      exact ⟨[], .done, (List.append_nil _).symm⟩
  | lap s c more hrest ih =>
      rcases ih with ⟨tokens, hstream, htokens⟩
      have htext := lexeme_append_rest_take hrest
      have hcut := Piece.cut_first c more
      rw [← lexeme_take_first hrest, ← hrest] at hcut
      rw [laps_of_cons hrest, List.getLastD_cons, htokens]
      cases hmeaning : (Piece.first c more).meaning? with
      | none =>
          have htoken := (Piece.meaning?_eq_none_iff c more).1 hmeaning
          refine ⟨tokens, .silent htext hcut htoken hstream, ?_⟩
          simp [take, Piece.token?, hmeaning]
      | some meaning =>
          rcases Piece.means_of_meaning? hmeaning with ⟨htoken, hmeans⟩
          rw [← lexeme_take_first hrest] at hmeans
          refine ⟨_, .token htext hcut htoken hmeans hstream, ?_⟩
          rw [lexeme_take_first hrest]
          simp [take, Piece.token?, hmeaning]

/-- The end of the text comes behind all other tokens. -/
theorem tokens_addEnd (s : Scanner) :
    s.addEnd.tokens =
      (s.tokens.toList ++ [Token.mk .endOfText "" .nil s.line]).toArray := by
  apply Array.toList_inj.1
  exact Array.toList_push

/-- A scan never fails: it returns the tokens of its run and the end of the text. -/
theorem scanTokens_eq (s : Scanner) :
    scanTokens s =
      .ok ((laps s).getLastD s).addEnd.tokens ((laps s).getLastD s).addEnd := by
  simp only [scanTokens, bind, EStateM.bind, scanAll_eq]
  rfl

/-- The tokens of a source are the stream of its laps and the end of the text.  The
lexeme of a token in the stream decides its kind and its literal. -/
theorem tokens_follow_laps (source : String) :
    ∃ tokens last, scanTokens (ofSource source) =
        .ok (tokens ++ [Token.mk .endOfText "" .nil last.line]).toArray last ∧
      TokenStream source.toList (laps (ofSource source)) tokens ∧
      (∀ stream, TokenStream source.toList (laps (ofSource source)) stream →
        stream = tokens) ∧
      (∀ token ∈ tokens, token.kind ≠ .endOfText ∧
        Means token.lexeme.toList token.kind token.literal) ∧
      ∀ text kind literal kind' literal', Means text kind literal →
        Means text kind' literal' → kind = kind' ∧ literal = literal' := by
  rcases exists_tokenStream (ofSource source) with ⟨tokens, hstream, htokens⟩
  refine ⟨tokens, ((laps (ofSource source)).getLastD (ofSource source)).addEnd, ?_, hstream,
    ?_, ?_, ?_⟩
  · have hempty : (ofSource source).tokens.toList = [] := rfl
    rw [hempty, List.nil_append] at htokens
    rw [scanTokens_eq, tokens_addEnd, htokens]
    rfl
  · intro stream hother
    exact hother.unique hstream
  · intro token hmem
    have hmeans := hstream.means token hmem
    exact ⟨hmeans.kind_ne_endOfText, hmeans⟩
  · intro text kind literal kind' literal' hmeans hmeans'
    exact Lexeme.means_unique hmeans hmeans'

end Scanner
end Lox
