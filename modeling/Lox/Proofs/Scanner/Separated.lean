import Lox.Proofs.Lexeme.Trivia
import Lox.Proofs.Scanner.Outcome

/-!
# Lexemes that are separated

Significant lexemes that are laid out with a separator behind each of them are read back.
Every separator between two lexemes begins with a blank, and then no lexeme goes on with
what follows it.  The separators add nothing but line feeds: each token has the kind and
the literal that its lexeme has alone, and stands on the line on which its lexeme ends.

Main results:

- Theorem {lit}`Layout.tokens_laidOut`: the tokens of a layout are those of its lexemes.
- Theorem {lit}`Layout.faults_laidOut`: it has no faults.
- Theorem {lit}`yields_laidOut`: a scan yields these tokens.
-/

namespace Lox
namespace Lexeme

open Piece (split tokens faults)

/-! ## Layouts -/

/-- Lexemes, each with the separator behind it, after a first separator. -/
def laidOut (lead : List Char) (entries : List (Significant × List Char)) : List Char :=
  lead ++ entries.flatMap fun entry => entry.1.text ++ entry.2

/-- The separators allow their places: those between lexemes begin with a blank, and so
does the last one if it is not empty. -/
inductive Layout : List Char → List (Significant × List Char) → Prop where
  | nil {lead : List Char} (hlead : Trailer lead) : Layout lead []
  | cons {lead separator : List Char} {x : Significant}
      {more : List (Significant × List Char)} (hlead : Separator lead)
      (hblank : Begins Blank separator ∨ (separator = [] ∧ more = []))
      (hmore : Layout separator more) : Layout lead ((x, separator) :: more)

@[simp]
theorem laidOut_nil (lead : List Char) : laidOut lead [] = lead :=
  List.append_nil lead

@[simp]
theorem laidOut_cons (lead : List Char) (x : Significant) (separator : List Char)
    (more : List (Significant × List Char)) :
    laidOut lead ((x, separator) :: more) = lead ++ (x.text ++ laidOut separator more) := by
  simp only [laidOut, List.flatMap_cons, List.append_assoc]

/-- A lexeme ends where the separator behind it begins. -/
theorem Significant.split_append_laidOut (x : Significant) {separator : List Char}
    {more : List (Significant × List Char)}
    (hblank : Begins Blank separator ∨ (separator = [] ∧ more = [])) :
    split (x.text ++ laidOut separator more) = x.piece :: split (laidOut separator more) := by
  apply x.split_append
  rcases hblank with ⟨c, rest, rfl, hc⟩ | ⟨rfl, rfl⟩
  · exact x.not_goesOn_of_blank ⟨c, _, rfl, hc⟩
  · exact not_goesOn_nil x.shape x.text

namespace Layout

variable {lead : List Char} {entries : List (Significant × List Char)}

/-- A text of lexemes and separators has no faults. -/
theorem faults_laidOut (hlayout : Layout lead entries) (line : Nat) :
    faults line (split (laidOut lead entries)) = [] := by
  induction hlayout generalizing line with
  | nil hlead =>
      rw [laidOut_nil]
      exact Piece.faults_of_trivia hlead.isTrivia line
  | @cons _ _ x _ hlead hblank _ ih =>
      rw [laidOut_cons, hlead.faults_append, x.split_append_laidOut hblank, faults,
        x.fault?_piece, ih]
      rfl

/-- A layout has one token for each lexeme, on the line on which the lexeme ends. -/
theorem tokens_laidOut (hlayout : Layout lead entries) (line : Nat) :
    (tokens line (split (laidOut lead entries))).length = entries.length ∧
      ∀ before x separator after, entries = before ++ (x, separator) :: after →
        (tokens line (split (laidOut lead entries)))[before.length]? =
          x.piece.token? (line + (laidOut lead before ++ x.text).count '\n') := by
  induction hlayout generalizing line with
  | nil hlead =>
      rw [laidOut_nil, Piece.tokens_of_trivia hlead.isTrivia]
      refine ⟨rfl, fun before x separator after hentries => ?_⟩
      cases before <;> cases hentries
  | @cons lead separator x more hlead hblank _ ih =>
      rcases ih (line + lead.count '\n' + x.text.count '\n') with ⟨hlength, hplaces⟩
      rcases x.exists_token with ⟨kind, literal, htoken⟩
      rw [laidOut_cons, hlead.tokens_append, x.split_append_laidOut hblank, tokens, htoken,
        Option.toList_some, List.singleton_append]
      refine ⟨congrArg Nat.succ hlength, fun before y separator' after hentries => ?_⟩
      cases before with
      | nil =>
          cases hentries
          rw [laidOut_nil, List.count_append, ← Nat.add_assoc]
          exact (htoken _).symm
      | cons entry before =>
          rw [List.cons_append, List.cons.injEq] at hentries
          rcases hentries with ⟨rfl, hentries⟩
          rw [List.length_cons, List.getElem?_cons_succ]
          have hplace := hplaces before y separator' after hentries
          simp only [laidOut_cons, List.count_append, ← Nat.add_assoc] at hplace ⊢
          exact hplace

end Layout
end Lexeme

namespace Scanner

open Lexeme (Significant Separator Trailer Layout laidOut)

/-! ## Scans of a layout -/

/-- A scan of a significant lexeme alone yields its token. -/
theorem yields_text (x : Significant) {token : Token}
    (htoken : x.piece.token? (1 + x.text.count '\n') = some token) :
    Yields x.text [token] := by
  rw [yields_iff, x.split_text, Piece.tokens, Piece.faults, x.fault?_piece]
  exact ⟨congrArg (·.toList ++ []) htoken, rfl⟩

/-- Lexemes that are separated are read back: the scan finds no fault and yields one token
for each of them, which has the kind and the literal that a scan of the lexeme alone gives
it, and the line on which the lexeme ends. -/
theorem yields_laidOut {lead : List Char} {entries : List (Significant × List Char)}
    (hlayout : Layout lead entries) :
    ∃ tokens, Yields (laidOut lead entries) tokens ∧ tokens.length = entries.length ∧
      ∀ before x separator after, entries = before ++ (x, separator) :: after →
        ∃ kind literal,
          Yields x.text
            [⟨kind, String.ofList x.text, literal, 1 + x.text.count '\n'⟩] ∧
          tokens[before.length]? =
            some ⟨kind, String.ofList x.text, literal,
              1 + (laidOut lead before ++ x.text).count '\n'⟩ := by
  rcases hlayout.tokens_laidOut 1 with ⟨hlength, hplaces⟩
  refine ⟨_, yields_iff.2 ⟨rfl, hlayout.faults_laidOut 1⟩, hlength, ?_⟩
  intro before x separator after hentries
  rcases x.exists_token with ⟨kind, literal, htoken⟩
  refine ⟨kind, literal, yields_text x (htoken _), ?_⟩
  rw [hplaces before x separator after hentries, htoken]

/-- A number and a string of two lines are read back from between comments that contain
quotes and operators. -/
theorem yields_laidOut_commented :
    ∃ x y : Significant, x.shape = .number ∧ y.shape = .string ∧
      Layout ['/', '/', '\x22', '\n', '\t']
        [(x, ['\r', '/', '/', '+', '\n']), (y, [' ', '/', '/', '='])] ∧
      ∃ tokens, Yields "//\"\n\t12.5\r//+\n\"//\n\" //=".toList tokens ∧
        tokens.length = 2 ∧ tokens[1]?.map Token.line = some 4 := by
  have hwhole : Lexeme.Digits ['1', '2'] :=
    ⟨by decide, List.forall_mem_cons.2 ⟨by decide, List.forall_mem_singleton.2 (by decide)⟩⟩
  have hpart : Lexeme.Digits ['5'] :=
    ⟨by decide, List.forall_mem_singleton.2 (by decide)⟩
  have hnumber : Lexeme.Shape.number.Accepts ['1', '2', '.', '5'] :=
    Or.inr ⟨_, _, rfl, hwhole, hpart⟩
  have hstring : Lexeme.Shape.string.Accepts ['\x22', '/', '/', '\n', '\x22'] :=
    ⟨['/', '/', '\n'], rfl, by decide⟩
  let x : Significant := ⟨_, .number, trivial, hnumber⟩
  let y : Significant := ⟨_, .string, trivial, hstring⟩
  have hlead : Separator ['/', '/', '\x22', '\n', '\t'] :=
    @Separator.comment ['\x22'] ['\t'] (by decide) (.blank (by decide) .nil)
  have hmiddle : Separator ['\r', '/', '/', '+', '\n'] :=
    .blank (by decide) (@Separator.comment ['+'] [] (by decide) .nil)
  have hlast : Trailer [' ', '/', '/', '='] :=
    @Trailer.comment [' '] ['='] (.blank (by decide) .nil) (by decide)
  have hlayout : Layout ['/', '/', '\x22', '\n', '\t']
      [(x, ['\r', '/', '/', '+', '\n']), (y, [' ', '/', '/', '='])] :=
    .cons hlead (Or.inl ⟨_, _, rfl, by decide⟩)
      (.cons hmiddle (Or.inl ⟨_, _, rfl, by decide⟩) (.nil hlast))
  rcases yields_laidOut hlayout with ⟨tokens, hyields, hlength, hplaces⟩
  rcases hplaces [(x, _)] y _ [] rfl with ⟨kind, literal, -, htoken⟩
  rw [List.length_singleton] at htoken
  exact ⟨x, y, rfl, rfl, hlayout, tokens, hyields, hlength, by rw [htoken]; rfl⟩

end Scanner
end Lox
