import Lox.Proofs.Lexeme.Significant
import Lox.Proofs.Scanner.Outcome

/-!
# Lexemes that touch

Significant lexemes that are written one after the other, with nothing between them, are
read back unless two or three of them clash: the first one would go on with what follows.
The clashes are few, and each of them changes what is read.

Main results:

- Theorem {lit}`goesOn_join_iff`: a lexeme clashes with those that follow it if their text
  goes on with it.
- Theorem {lit}`readsAs_iff`: what a scan reads is decided by the pieces of the text.
- Theorem {lit}`readsAs_join_iff`: lexemes that touch are read back exactly if no clash is
  among them.
-/

namespace Lox
namespace Lexeme

open Significant (join)

/-! ## Clashes -/

/-- The lexemes at the beginning of a list cannot touch. -/
inductive Clash : List Significant → Prop where
  | word {x y : Significant} {more : List Significant} (hx : x.shape = .word)
      (hy : y.shape = .word ∨ y.shape = .number) : Clash (x :: y :: more)
  | number {x y : Significant} {more : List Significant} (hx : x.shape = .number)
      (hy : y.shape = .number) : Clash (x :: y :: more)
  | fraction {x y z : Significant} {more : List Significant} (hx : x.shape = .number)
      (hwhole : '.' ∉ x.text) (hy : y.text = ['.']) (hz : z.shape = .number) :
      Clash (x :: y :: z :: more)
  | equals {x y : Significant} {more : List Significant}
      (hx : x.text ∈ [['!'], ['='], ['<'], ['>']]) (hy : y.text ∈ [['='], ['=', '=']]) :
      Clash (x :: y :: more)
  | slashes {x y : Significant} {more : List Significant} (hx : x.text = ['/'])
      (hy : y.text = ['/']) : Clash (x :: y :: more)

/-- What follows a text does not change how it begins. -/
theorem begins_append_iff {p : Char → Prop} {text : List Char} (hne : text ≠ [])
    (rest : List Char) : Begins p (text ++ rest) ↔ Begins p text := by
  cases text with
  | nil => exact absurd rfl hne
  | cons c body => rw [List.cons_append, begins_cons, begins_cons]

namespace Significant

/-- The text of lexemes begins as the first of them does. -/
theorem begins_join_iff {p : Char → Prop} {xs : List Significant} :
    Begins p (join xs) ↔ ∃ x more, xs = x :: more ∧ Begins p x.text := by
  cases xs with
  | nil => simp [join]
  | cons x more =>
      rw [join_cons, begins_append_iff x.text_ne_nil]
      constructor
      · intro hbegins
        exact ⟨x, more, rfl, hbegins⟩
      · rintro ⟨_, _, heq, hbegins⟩
        cases heq
        exact hbegins

/-- A fraction begins where a point stands before a number. -/
theorem beginsFraction_join_iff {xs : List Significant} :
    BeginsFraction (join xs) ↔
      ∃ x y more, xs = x :: y :: more ∧ x.text = ['.'] ∧ y.shape = .number := by
  constructor
  · rintro ⟨rest, hjoin, hdigit⟩
    have hpoint : Begins (· = '.') (join xs) := ⟨'.', rest, hjoin, rfl⟩
    rcases begins_join_iff.1 hpoint with ⟨x, more, rfl, hx⟩
    have htext := x.begins_point_iff.1 hx
    rw [join_cons, htext, List.singleton_append, List.cons.injEq] at hjoin
    rw [← hjoin.2] at hdigit
    rcases begins_join_iff.1 hdigit with ⟨y, more, rfl, hy⟩
    exact ⟨x, y, more, rfl, htext, y.begins_digit_iff.1 hy⟩
  · rintro ⟨x, y, more, rfl, htext, hy⟩
    refine ⟨join (y :: more), ?_, ?_⟩
    · rw [join_cons, htext]
      rfl
    · exact begins_join_iff.2 ⟨y, more, rfl, y.begins_digit_iff.2 hy⟩

/-- An operator is in the class of its kind. -/
theorem exists_operator {x : Significant} (hmem : x.text ∈ operators.map Prod.fst) :
    ∃ kind, x.shape = .operator kind := by
  rcases List.mem_map.1 hmem with ⟨operator, hoperator, htext⟩
  refine ⟨operator.2, accepts_unique x.accepts ?_⟩
  rw [← htext]
  exact hoperator

end Significant

/-- A lexeme clashes with those that follow it if their text goes on with it. -/
theorem goesOn_join_iff (x : Significant) (xs : List Significant) :
    x.shape.GoesOn x.text (join xs) ↔ Clash (x :: xs) := by
  constructor
  · intro hgoes
    have htoken := x.hasToken
    cases hshape : x.shape with
    | operator kind =>
        rw [hshape] at hgoes
        rcases hgoes with ⟨hx, hbegins⟩ | ⟨hx, hbegins⟩
        · rcases Significant.begins_join_iff.1 hbegins with ⟨y, more, rfl, hy⟩
          exact .equals hx (y.begins_equals_iff.1 hy)
        · rcases Significant.begins_join_iff.1 hbegins with ⟨y, more, rfl, hy⟩
          exact .slashes hx (y.begins_slash_iff.1 hy)
    | number =>
        rw [hshape] at hgoes
        rcases hgoes with hbegins | ⟨hwhole, hfraction⟩
        · rcases Significant.begins_join_iff.1 hbegins with ⟨y, more, rfl, hy⟩
          exact .number hshape (y.begins_digit_iff.1 hy)
        · rcases Significant.beginsFraction_join_iff.1 hfraction with
            ⟨y, z, more, rfl, hy, hz⟩
          exact .fraction hshape hwhole hy hz
    | word =>
        rw [hshape] at hgoes
        rcases Significant.begins_join_iff.1 hgoes with ⟨y, more, rfl, hy⟩
        exact .word hshape (y.begins_word_iff.1 hy)
    | string =>
        rw [hshape] at hgoes
        exact hgoes.elim
    | _ =>
        rw [hshape] at htoken
        exact htoken.elim
  · intro hclash
    cases hclash with
    | @word _ y more hx hy =>
        rw [hx]
        exact Significant.begins_join_iff.2 ⟨y, more, rfl, y.begins_word_iff.2 hy⟩
    | @number _ y more hx hy =>
        rw [hx]
        exact Or.inl (Significant.begins_join_iff.2 ⟨y, more, rfl, y.begins_digit_iff.2 hy⟩)
    | @fraction _ y z more hx hwhole hy hz =>
        rw [hx]
        exact Or.inr ⟨hwhole, Significant.beginsFraction_join_iff.2 ⟨y, z, more, rfl, hy, hz⟩⟩
    | @equals _ y more hx hy =>
        have hall : ∀ text ∈ comparisons, text ∈ operators.map Prod.fst := by decide
        rcases Significant.exists_operator (hall _ hx) with ⟨kind, hshape⟩
        rw [hshape]
        exact Or.inl ⟨hx, Significant.begins_join_iff.2 ⟨y, more, rfl, y.begins_equals_iff.2 hy⟩⟩
    | @slashes _ y more hx hy =>
        have hslash : ['/'] ∈ operators.map Prod.fst := by decide
        rcases Significant.exists_operator (hx ▸ hslash) with ⟨kind, hshape⟩
        rw [hshape]
        exact Or.inr ⟨hx, Significant.begins_join_iff.2 ⟨y, more, rfl, y.begins_slash_iff.2 hy⟩⟩

end Lexeme

namespace Piece

open Lexeme (Significant Clash)

/-! ## The lexemes of tokens -/

/-- The texts of tokens, in order. -/
def lexemes (tokens : List Token) : List (List Char) :=
  tokens.map fun token => token.lexeme.toList

/-- A piece with a token belongs to its class. -/
theorem accepts_of_token? {c : Char} {rest : List Char} {line : Nat} {token : Token}
    (htoken : (first c rest).token? line = some token) :
    (first c rest).shape.Accepts (first c rest).text := by
  rcases Option.map_eq_some_iff.1 htoken with ⟨meaning, hmeaning, -⟩
  have hclass := (means_of_meaning? hmeaning).1
  apply accepts_of_shape rfl
  · intro hshape
    rw [hshape] at hclass
    exact hclass
  · intro hshape
    rw [hshape] at hclass
    exact hclass

/-- Tokens have no more text than their pieces. -/
theorem length_lexemes_le (line : Nat) (pieces : List Piece) :
    (lexemes (tokens line pieces)).flatten.length ≤ (join pieces).length := by
  induction pieces generalizing line with
  | nil => exact Nat.le_refl 0
  | cons piece more ih =>
      have hmore := ih (line + piece.text.count '\n')
      rw [tokens, join_cons, List.length_append]
      cases htoken : piece.token? (line + piece.text.count '\n') with
      | none =>
          rw [Option.toList_none, List.nil_append]
          omega
      | some token =>
          have hlexeme := (of_token? htoken).1
          simp only [lexemes, Option.toList_some, List.singleton_append, List.map_cons,
            List.flatten_cons, List.length_append, hlexeme, String.toList_ofList] at hmore ⊢
          omega

/-! ## Lexemes that touch -/

/-- Without a clash every lexeme is a piece of its own. -/
theorem split_join {xs : List Significant}
    (hfree : ∀ suffix, suffix <:+ xs → ¬Clash suffix) :
    split (Significant.join xs) = xs.map Significant.piece := by
  induction xs with
  | nil => exact split_nil
  | cons x xs ih =>
      have hends : ¬x.shape.GoesOn x.text (Significant.join xs) := by
        rw [Lexeme.goesOn_join_iff]
        exact hfree _ List.suffix_rfl
      have hmore := ih fun suffix hsuffix => hfree suffix (hsuffix.trans (List.suffix_cons x xs))
      rw [Significant.join_cons, Significant.split_append hends, hmore, List.map_cons]

/-- If lexemes are all that is read from a text of their length, the first of them ends
before the others. -/
theorem ends_of_lexemes {x : Significant} {rest : List Char} {line : Nat}
    {texts : List (List Char)} (hlength : texts.flatten.length = rest.length)
    (hread : lexemes (tokens line (split (x.text ++ rest))) = x.text :: texts) :
    ¬x.shape.GoesOn x.text rest := by
  rcases x.exists_cons with ⟨c, body, htext, hshape, hbody⟩
  rw [htext, List.cons_append, split_cons, tokens] at hread
  cases htoken : (first c (body ++ rest)).token?
      (line + (first c (body ++ rest)).text.count '\n') with
  | none =>
      -- Then the first piece is lost, and what is left is too short for all lexemes.
      rw [htoken, Option.toList_none, List.nil_append] at hread
      have hle := length_lexemes_le (line + (first c (body ++ rest)).text.count '\n')
        (split ((c :: (body ++ rest)).drop (first c (body ++ rest)).text.length))
      have hpos : 0 < (first c (body ++ rest)).text.length := Nat.succ_pos _
      rw [hread, join_split, List.length_drop] at hle
      simp only [List.flatten_cons, List.length_append, List.length_cons] at hle
      omega
  | some token =>
      rw [htoken, Option.toList_some, List.singleton_append, lexemes, List.map_cons,
        List.cons.injEq, (of_token? htoken).1, String.toList_ofList] at hread
      have haccepts := accepts_of_token? htoken
      rw [hread.1, ← htext] at haccepts
      have hsame : (Lexeme.tail c (body ++ rest)).1 = x.shape :=
        Lexeme.accepts_unique haccepts x.accepts
      have hrest : (Lexeme.tail c (body ++ rest)).2 = body := (List.cons.inj hread.1).2
      have halone : Lexeme.tail c body = (x.shape, body) := Prod.ext hshape hbody
      rw [htext]
      exact (Lexeme.tail_append_iff halone rest).1 (Prod.ext hsame hrest)

/-- Where lexemes that touch are all that is read, no clash is among them. -/
theorem not_clash_of_lexemes {line : Nat} {xs : List Significant}
    (hread : lexemes (tokens line (split (Significant.join xs))) = xs.map Significant.text) :
    ∀ suffix, suffix <:+ xs → ¬Clash suffix := by
  induction xs generalizing line with
  | nil =>
      intro suffix hsuffix hclash
      rw [List.suffix_nil.1 hsuffix] at hclash
      cases hclash
  | cons x xs ih =>
      have hlength : (xs.map Significant.text).flatten.length =
          (Significant.join xs).length := by
        rw [Significant.join, List.flatMap_def]
      rw [Significant.join_cons, List.map_cons] at hread
      have hends := ends_of_lexemes hlength hread
      intro suffix hsuffix
      rcases List.suffix_cons_iff.1 hsuffix with rfl | hsuffix
      · rwa [← Lexeme.goesOn_join_iff]
      · rcases x.exists_token with ⟨kind, literal, htoken⟩
        rw [Significant.split_append hends, tokens, htoken] at hread
        exact ih (List.cons.inj hread).2 suffix hsuffix

/-- Pieces of significant lexemes have the tokens of these lexemes and no faults. -/
theorem lexemes_map_piece (line : Nat) (xs : List Significant) :
    lexemes (tokens line (xs.map Significant.piece)) = xs.map Significant.text := by
  induction xs generalizing line with
  | nil => rfl
  | cons x xs ih =>
      rcases x.exists_token with ⟨kind, literal, htoken⟩
      have hmore := ih (line + x.piece.text.count '\n')
      rw [List.map_cons, tokens, htoken]
      simp only [lexemes, Option.toList_some, List.singleton_append, List.map_cons,
        String.toList_ofList] at hmore ⊢
      rw [hmore]

theorem faults_map_piece (line : Nat) (xs : List Significant) :
    faults line (xs.map Significant.piece) = [] := by
  induction xs generalizing line with
  | nil => rfl
  | cons x xs ih =>
      rw [List.map_cons, faults, x.fault?_piece, ih]
      rfl

end Piece

namespace Scanner

open Lexeme (Significant Clash)

/-! ## Reading -/

/-- A scan of the text yields tokens with the given lexemes. -/
def ReadsAs (text : List Char) (lexemes : List (List Char)) : Prop :=
  ∃ tokens, Yields text tokens ∧ Piece.lexemes tokens = lexemes

/-- What is read from a text is decided by its pieces. -/
theorem readsAs_iff {text : List Char} {lexemes : List (List Char)} :
    ReadsAs text lexemes ↔
      Piece.lexemes (Piece.tokens 1 (Piece.split text)) = lexemes ∧
        Piece.faults 1 (Piece.split text) = [] := by
  constructor
  · rintro ⟨tokens, hyields, hlexemes⟩
    rcases yields_iff.1 hyields with ⟨rfl, hnone⟩
    exact ⟨hlexemes, hnone⟩
  · rintro ⟨hlexemes, hnone⟩
    exact ⟨_, yields_iff.2 ⟨rfl, hnone⟩, hlexemes⟩

/-- Lexemes that touch are read back exactly if no clash is among them. -/
theorem readsAs_join_iff (xs : List Significant) :
    ReadsAs (Significant.join xs) (xs.map Significant.text) ↔
      ∀ suffix, suffix <:+ xs → ¬Clash suffix := by
  rw [readsAs_iff]
  constructor
  · rintro ⟨hread, -⟩
    exact Piece.not_clash_of_lexemes hread
  · intro hfree
    rw [Piece.split_join hfree]
    exact ⟨Piece.lexemes_map_piece 1 xs, Piece.faults_map_piece 1 xs⟩

/-- An operator takes the equals sign that follows it, also the first one of two. -/
example : (scan "!==").1.toList.map (·.lexeme) = ["!=", "=", ""] := by
  decide +kernel

end Scanner
end Lox
