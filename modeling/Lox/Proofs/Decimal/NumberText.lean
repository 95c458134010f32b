import Lox.Proofs.Binary64.Sign
import Lox.Proofs.Decimal.Point
import Lox.Proofs.Numeral.Plain

/-!
# Number text is read back

The text of a number is a numeral, in both notations, and it denotes the number.  So two
numbers with one text are the same number.

Main results:

- Theorem {lit}`Decimal.exists_pointed_of_chars`: in both notations a decimal denotes what it
  stands for.
- Theorem {lit}`read?_chars`: the text of a number is read back as it.
- Theorem {lit}`chars_injective`: different numbers have different texts.
- Theorem {lit}`Moderate.accepts_chars`: the magnitude of a moderate number is written as a
  number of the language.
-/

namespace Lox

open Lexeme (Digit Digits)
open Numeral (Bare Power pointed decimal? exponent? boundedExponent read?)

namespace Decimal

/-! ## Zeros -/

theorem digit_of_mem_zeros {count : Nat} {c : Char} (hc : c ∈ List.replicate count '0') :
    Digit c := by
  rw [List.eq_of_mem_replicate hc]
  decide

/-- The digits of a power of ten, with the zeros in front of them. -/
theorem digit_of_mem_leftpad {n : Nat} {c : Char}
    (hc : c ∈ (Nat.toDigits 10 n).leftpad 2 '0') : Digit c := by
  rcases List.mem_append.1 hc with hc | hc
  · exact digit_of_mem_zeros hc
  · exact digit_of_mem_toDigits hc

/-! ## Positional notation -/

/-- The digits in front of a point and behind it are those of the decimal, with zeros around
them.  Zeros stand behind the digits only if no fraction does. -/
structure Layout (d : Decimal) (whole part : List Char) : Prop where
  whole_ok : Digits whole
  part_ok : ∀ c ∈ part, Digit c
  digits_eq : ∃ before after : Nat,
    whole ++ part = List.replicate before '0' ++ d.digits ++ List.replicate after '0' ∧
      after - part.length = d.exponent ∧ (part = [] ∨ after = 0)

/-- With the point to the left of the digits, zeros stand between them. -/
theorem layout_left {d : Decimal} (hdigits : Digits d.digits) (hleft : d.point ≤ 0) :
    d.Layout ['0'] (List.replicate (-d.point).toNat '0' ++ d.digits) := by
  refine ⟨⟨by simp, by simp; decide⟩, fun c hc => ?_, (-d.point).toNat + 1, 0, ?_, ?_,
    .inr rfl⟩
  · rcases List.mem_append.1 hc with hc | hc
    · exact digit_of_mem_zeros hc
    · exact hdigits.2 c hc
  · simp [List.replicate_succ]
  · simp only [List.length_append, List.length_replicate, exponent]
    omega

/-- With the point among the digits, it parts them. -/
theorem layout_inside {d : Decimal} (hdigits : Digits d.digits) (hleft : ¬d.point ≤ 0)
    (hinside : d.point < d.digits.length) :
    d.Layout (d.digits.take d.point.toNat) (d.digits.drop d.point.toNat) := by
  refine ⟨⟨?_, fun c hc => hdigits.2 c (List.mem_of_mem_take hc)⟩,
    fun c hc => hdigits.2 c (List.mem_of_mem_drop hc), 0, 0, by simp, ?_, .inr rfl⟩
  · rw [ne_eq, List.take_eq_nil_iff, not_or]
    exact ⟨by omega, hdigits.1⟩
  · simp only [List.length_drop, exponent]
    omega

/-- With the point behind the digits, zeros fill the gap. -/
theorem layout_whole {d : Decimal} (hdigits : Digits d.digits)
    (hinside : ¬d.point < d.digits.length) :
    d.Layout (d.digits ++ List.replicate (d.point.toNat - d.digits.length) '0') [] := by
  refine ⟨⟨by simp [hdigits.1], fun c hc => ?_⟩, nofun, 0,
    d.point.toNat - d.digits.length, by simp, ?_, .inl rfl⟩
  · rcases List.mem_append.1 hc with hc | hc
    · exact hdigits.2 c hc
    · exact digit_of_mem_zeros hc
  · have hne := List.length_pos_iff.2 hdigits.1
    simp only [List.length_nil, exponent]
    omega

/-- Positional notation is a plain numeral with the digits of the decimal. -/
theorem exists_layout {d : Decimal} (hdigits : Digits d.digits) :
    ∃ whole part, d.positional .lox = pointed whole part ∧ d.Layout whole part := by
  unfold positional
  split
  · rename_i hleft
    exact ⟨_, _, by simp [pointed, hdigits.1], layout_left hdigits hleft⟩
  · rename_i hleft
    split
    · rename_i hinside
      have hpart : d.digits.drop d.point.toNat ≠ [] := by
        rw [ne_eq, List.drop_eq_nil_iff]
        omega
      exact ⟨_, _, by simp [pointed, hpart], layout_inside hdigits hleft hinside⟩
    · rename_i hinside
      exact ⟨_, _, by simp [pointed, NumberFormat.lox], layout_whole hdigits hinside⟩

/-- The text is a plain numeral that denotes what the decimal stands for. -/
def Spells (d : Decimal) (text : List Char) : Prop :=
  ∃ whole part, text = pointed whole part ∧ Digits whole ∧ (∀ c ∈ part, Digit c) ∧
    ∀ negative, Binary64.ofDecimal negative (Nat.ofDigitChars 10 (whole ++ part) 0)
      (-part.length) = Binary64.ofDecimal negative d.significand d.exponent

/-- Positional notation is a plain numeral and denotes what the decimal stands for. -/
theorem spells_positional {d : Decimal} (hdigits : Digits d.digits) :
    d.Spells (d.positional .lox) := by
  rcases exists_layout hdigits with ⟨whole, part, htext, hwhole, hpart, before, after,
    hlayout, hexponent, -⟩
  refine ⟨whole, part, htext, hwhole, hpart, fun negative => ?_⟩
  rw [hlayout, Nat.ofDigitChars_append, Nat.ofDigitChars_append,
    Nat.ofDigitChars_replicate_zero, Nat.ofDigitChars_replicate_zero, Nat.mul_zero,
    Nat.mul_comm, Binary64.ofDecimal_mul_pow, Int.add_comm, ← sub_eq_add_neg, hexponent,
    significand]

/-! ## Scientific notation -/

/-- A power of ten is read back. -/
theorem exponent?_exponentText (exponent : Int) :
    exponent? ('e' :: exponentText exponent) = some exponent := by
  have hsign : Numeral.sign (exponentText exponent) =
      (decide (exponent < 0), (Nat.toDigits 10 exponent.natAbs).leftpad 2 '0') := by
    unfold exponentText
    by_cases hnegative : exponent < 0
    · simp [hnegative, Numeral.sign]
    · simp [hnegative, Numeral.sign]
  have hvalue : Nat.ofDigitChars 10 ((Nat.toDigits 10 exponent.natAbs).leftpad 2 '0') 0 =
      exponent.natAbs := by
    rw [List.leftpad, Nat.ofDigitChars_append, Nat.ofDigitChars_replicate_zero, Nat.mul_zero,
      Nat.ofDigitChars_toDigits (by decide) (by decide)]
  have hall : ((Nat.toDigits 10 exponent.natAbs).leftpad 2 '0').all Char.isDigit = true := by
    rw [List.all_eq_true]
    exact fun c hc => (digit_of_mem_leftpad hc).isDigit
  have hne : (Nat.toDigits 10 exponent.natAbs).leftpad 2 '0' ≠ [] := by
    simp [List.leftpad]
  have hmagnitude : (if decide (exponent < 0) = true then -(exponent.natAbs : Int) else
      exponent.natAbs) = exponent := by
    by_cases hnegative : exponent < 0
    · rw [if_pos (decide_eq_true hnegative)]
      omega
    · rw [if_neg (by simpa using hnegative)]
      omega
  rw [exponent?, hsign]
  dsimp only
  rw [if_pos ⟨Or.inl rfl, hne, hall⟩, hvalue, hmagnitude]

/-- Scientific notation is digits with a point and a power of ten, and denotes what the
decimal stands for. -/
theorem exists_pointed_of_scientific {d : Decimal} (hdigits : Digits d.digits)
    (hleast : -400 < d.point) (hgreatest : d.point ≤ 400) :
    ∃ whole part, d.scientific = pointed whole part ++ 'e' :: exponentText (d.point - 1) ∧
      Digits whole ∧ (∀ c ∈ part, Digit c) ∧
      ∀ negative, decimal? negative d.scientific =
        some (Binary64.ofDecimal negative d.significand d.exponent) := by
  rcases hdigits with ⟨hne, hdigits⟩
  cases hlist : d.digits with
  | nil => exact absurd hlist hne
  | cons first rest =>
      rw [hlist, List.forall_mem_cons] at hdigits
      have hwhole : Digits [first] := ⟨by simp, by simpa using hdigits.1⟩
      have htext : d.scientific =
          pointed [first] rest ++ 'e' :: exponentText (d.point - 1) := by
        cases rest <;> simp [scientific, hlist, pointed]
      have hbounded : boundedExponent ([first] ++ rest).length (d.point - 1) - rest.length =
          d.exponent := by
        simp only [boundedExponent, exponent, hlist, List.length_append, List.length_cons,
          List.length_nil]
        omega
      refine ⟨[first], rest, htext, hwhole, hdigits.2, fun negative => ?_⟩
      rw [htext, Numeral.decimal?_pointed hwhole hdigits.2 (Or.inr ⟨_, rfl⟩)
        (exponent?_exponentText (d.point - 1)) negative, hbounded, significand, hlist]
      rfl

/-! ## Both notations -/

/-- The characters of a power of ten. -/
def PowerChar (c : Char) : Prop :=
  Digit c ∨ c = 'e' ∨ c = '+' ∨ c = '-'

/-- A power of ten is written by a sign and digits. -/
theorem powerChar_of_mem_exponentText {exponent : Int} {c : Char}
    (hc : c ∈ exponentText exponent) : PowerChar c := by
  rcases List.mem_cons.1 hc with rfl | hc
  · by_cases hnegative : exponent < 0 <;> simp [hnegative, PowerChar]
  · exact Or.inl (digit_of_mem_leftpad hc)

/-- In either notation a decimal is digits with a point and a power of ten, and denotes what
it stands for. -/
theorem exists_pointed_of_chars {d : Decimal} (hdigits : Digits d.digits)
    (hleast : -400 < d.point) (hgreatest : d.point ≤ 400) :
    ∃ whole part power, d.chars .lox = pointed whole part ++ power ∧ Digits whole ∧
      (∀ c ∈ part, Digit c) ∧ (∀ c ∈ power, PowerChar c) ∧
      ∀ negative, decimal? negative (d.chars .lox) =
        some (Binary64.ofDecimal negative d.significand d.exponent) := by
  unfold chars
  split
  · rcases spells_positional hdigits with ⟨whole, part, htext, hwhole, hpart, hvalue⟩
    refine ⟨whole, part, [], by rw [htext, List.append_nil], hwhole, hpart, by simp, ?_⟩
    intro negative
    rw [htext, Numeral.decimal?_plain hwhole hpart, hvalue]
  · rcases exists_pointed_of_scientific hdigits hleast hgreatest with
      ⟨whole, part, htext, hwhole, hpart, hvalue⟩
    refine ⟨whole, part, _, htext, hwhole, hpart, ?_, hvalue⟩
    rw [List.forall_mem_cons]
    exact ⟨Or.inr (Or.inl rfl), fun c hc => powerChar_of_mem_exponentText hc⟩

end Decimal

namespace Binary64

/-! ## Numbers -/

/-- The characters of number text: digits, points, signs and the letters of powers of ten and
of the names. -/
def Numeric (c : Char) : Prop :=
  Digit c ∨ c ∈ ['.', '-', '+', 'e', 'i', 'n', 'f', 'a']

instance (c : Char) : Decidable (Numeric c) :=
  inferInstanceAs (Decidable (Digit c ∨ c ∈ ['.', '-', '+', 'e', 'i', 'n', 'f', 'a']))

/-- The characters of number text are bare: ASCII, no blanks and no underscores. -/
theorem Numeric.bare {c : Char} (hnumeric : Numeric c) : Bare c := by
  rcases hnumeric with hdigit | hmark
  · exact Numeral.bare_of_plain (Or.inl hdigit)
  · simp only [List.mem_cons, List.not_mem_nil, or_false] at hmark
    rcases hmark with rfl | rfl | rfl | rfl | rfl | rfl | rfl | rfl <;>
      exact ⟨by decide, by decide, by decide⟩

theorem numeric_of_mem_signChars {negative : Bool} {c : Char}
    (hc : c ∈ signChars negative) : Numeric c := by
  cases negative with
  | false => simp [signChars] at hc
  | true =>
      rw [signChars, if_pos rfl, List.mem_singleton] at hc
      simp [hc, Numeric]

/-- The magnitude of a finite number has the shape of a numeral, and denotes the number. -/
theorem exists_pointed_of_rank (rank : Fin rankLimit) :
    ∃ whole part power, (Decimal.shortest rank).chars .lox = pointed whole part ++ power ∧
      Digits whole ∧ (∀ c ∈ part, Digit c) ∧ (∀ c ∈ power, Decimal.PowerChar c) ∧
      ∀ negative, decimal? negative ((Decimal.shortest rank).chars .lox) =
        some (.finite negative rank) := by
  have hbounds := Decimal.point_bounds rank.isLt
  rcases Decimal.exists_pointed_of_chars (Decimal.digits_shortest rank) (by omega) (by omega)
    with ⟨whole, part, power, htext, hwhole, hpart, hpower, hvalue⟩
  refine ⟨whole, part, power, htext, hwhole, hpart, hpower, fun negative => ?_⟩
  rw [hvalue, Decimal.ofDecimal_shortest]

/-- The text of a number has its characters only. -/
theorem numeric_of_mem_chars {x : Binary64} {c : Char} (hc : c ∈ x.chars .lox) :
    Numeric c := by
  cases x with
  | nan =>
      simp only [chars_nan, List.mem_cons, List.not_mem_nil, or_false] at hc
      rcases hc with rfl | rfl | rfl <;> simp [Numeric]
  | infinite negative =>
      rw [chars_infinite, List.mem_append] at hc
      rcases hc with hc | hc
      · exact numeric_of_mem_signChars hc
      · simp only [List.mem_cons, List.not_mem_nil, or_false] at hc
        rcases hc with rfl | rfl | rfl <;> simp [Numeric]
  | finite negative rank =>
      rcases exists_pointed_of_rank rank with
        ⟨whole, part, power, htext, hwhole, hpart, hpower, -⟩
      rw [chars, htext, List.mem_append, List.mem_append] at hc
      rcases hc with hc | hc | hc
      · exact numeric_of_mem_signChars hc
      · rcases Numeral.plain_pointed hwhole.2 hpart c hc with hdigit | rfl
        · exact Or.inl hdigit
        · simp [Numeric]
      · rcases hpower c hc with hdigit | rfl | rfl | rfl
        · exact Or.inl hdigit
        all_goals simp [Numeric]

/-- The text of a number is read back as it. -/
theorem read?_chars (x : Binary64) : read? (x.chars .lox) = some x := by
  have hbare : ∀ c ∈ x.chars .lox, Bare c := fun c hc => (numeric_of_mem_chars hc).bare
  cases x with
  | nan => decide
  | infinite negative => cases negative <;> decide
  | finite negative rank =>
      rcases exists_pointed_of_rank rank with ⟨whole, part, power, htext, hwhole, -, -, hvalue⟩
      have hsign : Numeral.sign (chars .lox (.finite negative rank)) =
          (negative, (Decimal.shortest rank).chars .lox) := by
        cases negative with
        | true => rfl
        | false =>
            rw [chars, htext]
            exact Numeral.sign_pointed hwhole part power
      rw [Numeral.read?_of_bare hbare hsign, hvalue]
      rfl

/-- Different numbers have different texts. -/
theorem chars_injective : Function.Injective (chars .lox) := by
  intro x y heq
  have hread := congrArg read? heq
  rwa [read?_chars, read?_chars, Option.some_inj] at hread

/-! ## Signs and magnitudes -/

/-- The text of a number is its sign and the text of its magnitude. -/
theorem chars_eq_signChars_append (x : Binary64) (format : NumberFormat) :
    x.chars format = signChars x.isNegative ++ x.magnitude.chars format := by
  cases x <;> rfl

/-- The magnitude of a moderate number is written as a number of the language. -/
theorem Moderate.accepts_chars {x : Binary64} (hmoderate : x.Moderate) :
    Lexeme.Shape.number.Accepts (x.magnitude.chars .lox) := by
  cases x with
  | finite negative rank =>
      rcases Decimal.spells_positional (Decimal.digits_shortest rank) with
        ⟨whole, part, htext, hwhole, hpart, -⟩
      have hchars : chars .lox (.finite false rank) = pointed whole part := by
        rw [chars, Decimal.chars, if_pos (Decimal.isPositional_shortest hmoderate), htext]
        rfl
      rw [magnitude, hchars]
      exact Numeral.accepts_pointed hwhole hpart
  | _ => exact hmoderate.elim

end Binary64
end Lox
