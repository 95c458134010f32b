import Lox.Numeral
import Lox.Proofs.Lexeme.Grammar

/-!
# Reading numerals

The reader of numerals takes blanks around them, underscores between their digits and the
characters of other scripts.  Where a text has none of these, it is read as it stands: its
sign, and then digits with a point and a power of ten, or a name.

Main results:

- Theorem {lit}`read?_of_bare`: a text without any of these is read as it stands.
- Theorem {lit}`decimal?_of_parts`, {lit}`decimal?_pointed`: what digits with a point and a
  power of ten denote.
-/

namespace Lox
namespace Numeral

open Lexeme (Digit Digits)

/-! ## Bare texts -/

/-- A character of ASCII that is no blank and no underscore. -/
structure Bare (c : Char) : Prop where
  ascii : c.toNat < 0x80
  not_blank : isBlank c = false
  ne_underscore : c ≠ '_'

/-- A bare text is ASCII already. -/
theorem mapM_toAscii?_of_bare {text : List Char} (hbare : ∀ c ∈ text, Bare c) :
    text.mapM Text.toAscii? = some text := by
  induction text with
  | nil => rfl
  | cons c rest ih =>
      rw [List.forall_mem_cons] at hbare
      simp [Text.toAscii?_of_ascii hbare.1.ascii, ih hbare.2]

/-- Without a blank at its beginning a text loses nothing there. -/
theorem dropWhile_isBlank_of_bare {text : List Char} (hbare : ∀ c ∈ text, Bare c) :
    text.dropWhile isBlank = text := by
  cases text with
  | nil => rfl
  | cons c rest => simp [(hbare c List.mem_cons_self).not_blank]

/-- There are no blanks to be trimmed off a bare text. -/
theorem trim_of_bare {text : List Char} (hbare : ∀ c ∈ text, Bare c) : trim text = text := by
  have hreverse : ∀ c ∈ text.reverse, Bare c := fun c hc => hbare c (List.mem_reverse.1 hc)
  rw [trim, dropWhile_isBlank_of_bare hbare, dropWhile_isBlank_of_bare hreverse,
    List.reverse_reverse]

/-- There are no underscores to be taken out of a bare text. -/
theorem ungroup?_of_bare {text : List Char} (hbare : ∀ c ∈ text, Bare c)
    (afterDigit : Bool) : ungroup? afterDigit text = some text := by
  induction text generalizing afterDigit with
  | nil => rfl
  | cons c rest ih =>
      rw [List.forall_mem_cons] at hbare
      have hne := hbare.1.ne_underscore
      rw [ungroup?]
      · rw [ih hbare.2, Option.map_some]
      · rintro d more rfl
        exact absurd rfl hne
      · rintro rfl
        exact absurd rfl hne

/-- A bare text is read as it stands: its sign, and then a decimal or a name. -/
theorem read?_of_bare {text magnitude : List Char} {negative : Bool}
    (hbare : ∀ c ∈ text, Bare c) (hsign : sign text = (negative, magnitude)) :
    read? text = (decimal? negative magnitude <|> named? negative magnitude) := by
  simp [read?, mapM_toAscii?_of_bare hbare, trim_of_bare hbare, readAscii?,
    ungroup?_of_bare hbare, hsign]

/-- A text that begins with neither sign has none. -/
theorem sign_of_unsigned {c : Char} {rest : List Char} (hminus : c ≠ '-') (hplus : c ≠ '+') :
    sign (c :: rest) = (false, c :: rest) := by
  unfold sign
  split
  · rename_i heq
    exact absurd (List.cons.inj heq).1 hminus
  · rename_i heq
    exact absurd (List.cons.inj heq).1 hplus
  · rfl

/-! ## Decimals -/

/-- What may follow the digits of a decimal: nothing that begins with a digit or a point. -/
def Stops (rest : List Char) : Prop :=
  ∀ c more, rest = c :: more → c.isDigit = false ∧ c ≠ '.'

theorem Stops.takeWhile_eq {rest : List Char} (hstops : Stops rest) :
    rest.takeWhile Char.isDigit = [] := by
  cases rest with
  | nil => rfl
  | cons c more => simp [(hstops c more rfl).1]

/-- Digits in front of a stop are taken up to it. -/
theorem Stops.takeWhile_append {rest : List Char} (hstops : Stops rest) {part : List Char}
    (hpart : ∀ c ∈ part, Digit c) : (part ++ rest).takeWhile Char.isDigit = part := by
  have hall : ∀ c ∈ part, c.isDigit = true := fun c hc => (hpart c hc).isDigit
  rw [List.takeWhile_append_of_pos hall, hstops.takeWhile_eq, List.append_nil]

theorem Stops.dropWhile_append {rest : List Char} (hstops : Stops rest) {part : List Char}
    (hpart : ∀ c ∈ part, Digit c) : (part ++ rest).dropWhile Char.isDigit = rest := by
  have hall : ∀ c ∈ part, c.isDigit = true := fun c hc => (hpart c hc).isDigit
  rw [List.dropWhile_append_of_pos hall]
  cases rest with
  | nil => simp
  | cons c more => simp [(hstops c more rfl).1]

/-- No fraction begins at a stop. -/
theorem Stops.fraction_eq {rest : List Char} (hstops : Stops rest) :
    fraction rest = ([], rest) := by
  cases rest with
  | nil => rfl
  | cons c more =>
      have hpoint := (hstops c more rfl).2
      unfold fraction
      split
      · rename_i heq
        exact absurd (List.cons.inj heq).1 hpoint
      · rfl

/-- The point of a decimal and the digits behind it, if there is one. -/
def fractionChars : Option (List Char) → List Char
  | none => []
  | some part => '.' :: part

/-- Digits with a point among them and a power of ten denote the number nearest to the natural
number that the digits spell, times the power, divided by ten for every digit behind the
point.  Digits may be missing in front of the point or behind it. -/
theorem decimal?_of_parts {whole rest : List Char} {part : Option (List Char)} {exponent : Int}
    (hwhole : ∀ c ∈ whole, Digit c) (hpart : ∀ c ∈ part.getD [], Digit c)
    (hne : whole ++ part.getD [] ≠ []) (hstops : Stops rest)
    (hexponent : exponent? rest = some exponent) (negative : Bool) :
    decimal? negative (whole ++ fractionChars part ++ rest) =
      some (Binary64.ofDecimal negative (Nat.ofDigitChars 10 (whole ++ part.getD []) 0)
        (boundedExponent (whole ++ part.getD []).length exponent - (part.getD []).length)) := by
  cases part with
  | none =>
      simp only [Option.getD_none, List.append_nil] at hne
      simp [decimal?, fractionChars, hstops.takeWhile_append hwhole,
        hstops.dropWhile_append hwhole, hstops.fraction_eq, hne, hexponent]
  | some part =>
      have hall : ∀ c ∈ whole, c.isDigit = true := fun c hc => (hwhole c hc).isDigit
      have hpoint : Char.isDigit '.' = false := rfl
      have htake : (whole ++ '.' :: (part ++ rest)).takeWhile Char.isDigit = whole := by
        simp [List.takeWhile_append_of_pos hall, hpoint]
      have hdrop : (whole ++ '.' :: (part ++ rest)).dropWhile Char.isDigit =
          '.' :: (part ++ rest) := by
        simp [List.dropWhile_append_of_pos hall, hpoint]
      simp only [Option.getD_some] at hpart hne ⊢
      simp only [decimal?, fractionChars, List.append_assoc, List.cons_append, htake, hdrop,
        fraction, hstops.takeWhile_append hpart, hstops.dropWhile_append hpart, if_neg hne,
        hexponent, Option.map_some]

/-- Digits with a point before the second part of them, if there is one. -/
def pointed (whole part : List Char) : List Char :=
  whole ++ if part = [] then [] else '.' :: part

/-- What follows the digits of a decimal: nothing, or a power of ten. -/
def Power (power : List Char) : Prop :=
  power = [] ∨ ∃ rest, power = 'e' :: rest

theorem Power.stops {power : List Char} (hpower : Power power) : Stops power := by
  rintro c more rfl
  rcases hpower with hnone | ⟨rest, hpower⟩
  · cases hnone
  · cases hpower
    decide

/-- Digits with a point and a power of ten denote the number nearest to the natural number
that the digits spell, times the power, divided by ten for every digit behind the point. -/
theorem decimal?_pointed {whole part power : List Char} {exponent : Int}
    (hwhole : Digits whole) (hpart : ∀ c ∈ part, Digit c) (hpower : Power power)
    (hexponent : exponent? power = some exponent) (negative : Bool) :
    decimal? negative (pointed whole part ++ power) =
      some (Binary64.ofDecimal negative (Nat.ofDigitChars 10 (whole ++ part) 0)
        (boundedExponent (whole ++ part).length exponent - part.length)) := by
  have hne : whole ++ part ≠ [] := List.append_ne_nil_of_left_ne_nil hwhole.1 part
  by_cases hnone : part = []
  · subst hnone
    simpa [pointed, fractionChars] using @decimal?_of_parts whole power none exponent
      hwhole.2 (by simp) (by simpa using hne) hpower.stops hexponent negative
  · simpa [pointed, fractionChars, hnone] using @decimal?_of_parts whole power (some part)
      exponent hwhole.2 hpart hne hpower.stops hexponent negative

end Numeral
end Lox
