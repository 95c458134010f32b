import Lox.Proofs.Binary64.Exact
import Lox.Proofs.Numeral.Plain

/-!
# Decimal texts

A decimal text has digits, with a point among them or without one, a sign and a power of ten;
all but the digits may be missing.  It stands for a rational number, and it is read as the
number to which this one rounds.  The reader does not follow the power of ten as far as it
goes, but where it stops the number is zero or infinite already.

Main results:

- Theorem {lit}`ofDecimal_boundedExponent`: bounding the power of ten changes no number.
- Theorem {lit}`read?_chars`: what a decimal text denotes.
- Theorem {lit}`read?_chars_eq_some_iff`: a decimal text is read as the number to which it
  rounds.
- Theorem {lit}`DecimalText.chars_injective`: a text is a decimal text in one form.
-/

namespace Lox

open Lexeme (Digit Digits)

namespace Binary64

/-! ## Powers of ten beyond the bound -/

theorem decimal_nonneg (significand : Nat) (exponent : Int) :
    (0 : ℚ) ≤ significand * 10 ^ exponent :=
  mul_nonneg (Nat.cast_nonneg significand) (zpow_nonneg (by norm_num) exponent)

/-- A significand of zero denotes a zero, whatever the power of ten. -/
theorem ofDecimal_zero (negative : Bool) (exponent : Int) :
    ofDecimal negative 0 exponent = zero negative := by
  have hrounds := rounds_ofDecimal negative 0 exponent
  rw [Nat.cast_zero, zero_mul] at hrounds
  exact (hrounds.eq_zero_iff le_rfl).2 (one_div_nonneg.2 (pow_nonneg zero_le_two 1075))

/-- A decimal is infinite from the power {lit}`10 ^ 309` on. -/
theorem ofDecimal_eq_infinite (negative : Bool) {significand : Nat} {exponent : Int}
    (hsignificand : significand ≠ 0) (hexponent : 309 ≤ exponent) :
    ofDecimal negative significand exponent = .infinite negative := by
  have hpower (limit count : Nat) (hle : Nat.pow 2 limit ≤ Nat.pow 10 count)
      (hcount : (count : Int) ≤ exponent) : (2 : ℚ) ^ limit ≤ 10 ^ exponent := by
    calc (2 : ℚ) ^ limit ≤ 10 ^ count := by exact_mod_cast hle
      _ = 10 ^ (count : Int) := (zpow_natCast 10 count).symm
      _ ≤ 10 ^ exponent := zpow_le_zpow_right₀ (by norm_num) hcount
  have hone : (1 : ℚ) ≤ significand := by exact_mod_cast Nat.one_le_iff_ne_zero.2 hsignificand
  refine (rounds_ofDecimal negative significand exponent).eq_infinite_iff.2 ?_
  calc overflow ≤ 2 ^ 1024 := sub_le_self _ (pow_nonneg zero_le_two 970)
    _ ≤ 10 ^ exponent := hpower 1024 309 (by decide +kernel) hexponent
    _ ≤ significand * 10 ^ exponent :=
      le_mul_of_one_le_left (zpow_nonneg (by norm_num) exponent) hone

/-- A decimal below {lit}`10 ^ -324` is zero. -/
theorem ofDecimal_eq_zero (negative : Bool) {significand count : Nat} {exponent : Int}
    (hsignificand : significand < 10 ^ count) (hexponent : count + exponent ≤ -324) :
    ofDecimal negative significand exponent = zero negative := by
  have hpower (limit places : Nat) (hle : Nat.pow 2 limit ≤ Nat.pow 10 places)
      (hplaces : count + exponent ≤ -(places : Int)) :
      (10 : ℚ) ^ (count + exponent) ≤ 1 / 2 ^ limit := by
    have hcast : (2 : ℚ) ^ limit ≤ 10 ^ places := by exact_mod_cast hle
    calc (10 : ℚ) ^ (count + exponent) ≤ 10 ^ (-(places : Int)) :=
          zpow_le_zpow_right₀ (by norm_num) hplaces
      _ = 1 / 10 ^ places := by rw [zpow_neg, zpow_natCast, one_div]
      _ ≤ 1 / 2 ^ limit := one_div_le_one_div_of_le (pow_pos two_pos limit) hcast
  have hcast : (significand : ℚ) ≤ 10 ^ count := by exact_mod_cast hsignificand.le
  refine ((rounds_ofDecimal negative significand exponent).eq_zero_iff
    (decimal_nonneg significand exponent)).2 ?_
  calc (significand : ℚ) * 10 ^ exponent ≤ 10 ^ count * 10 ^ exponent :=
        mul_le_mul_of_nonneg_right hcast (zpow_nonneg (by norm_num) exponent)
    _ = 10 ^ (count + exponent) := by rw [zpow_add₀ (by norm_num), zpow_natCast]
    _ ≤ 1 / 2 ^ 1075 := hpower 1075 324 (by decide +kernel) hexponent

/-- Bounding the power of ten changes no number. -/
theorem ofDecimal_boundedExponent (negative : Bool) {significand count places : Nat}
    (hsignificand : significand < 10 ^ count) (hplaces : places ≤ count) (power : Int) :
    ofDecimal negative significand (Numeral.boundedExponent count power - places) =
      ofDecimal negative significand (power - places) := by
  unfold Numeral.boundedExponent
  dsimp only
  by_cases hgreat : 400 + (count : Int) < power
  · by_cases hzero : significand = 0
    · rw [hzero, ofDecimal_zero, ofDecimal_zero]
    · rw [ofDecimal_eq_infinite negative hzero (by omega),
        ofDecimal_eq_infinite negative hzero (by omega)]
  · by_cases hsmall : power < -(400 + (count : Int))
    · rw [ofDecimal_eq_zero negative hsignificand (by omega),
        ofDecimal_eq_zero negative hsignificand (by omega)]
    · congr 2
      omega

end Binary64

namespace Numeral

open Binary64 (ofDecimal Rounds withSign)

/-! ## Digits -/

/-- Digits spell a natural number with no more digits. -/
theorem ofDigitChars_lt {digits : List Char} (hdigits : ∀ c ∈ digits, Digit c) :
    Nat.ofDigitChars 10 digits 0 < 10 ^ digits.length := by
  induction digits with
  | nil => decide
  | cons c rest ih =>
      rw [List.forall_mem_cons] at hdigits
      have hrest := ih hdigits.2
      have hc : c.toNat - '0'.toNat < 10 := by
        have hnine : c.toNat ≤ '9'.toNat := hdigits.1.2
        have hvalues : '9'.toNat = 57 ∧ '0'.toNat = 48 := by decide
        omega
      rw [Nat.ofDigitChars_cons, Nat.ofDigitChars_eq_ofDigitChars_zero, Nat.mul_zero,
        Nat.zero_add, List.length_cons, pow_succ]
      generalize c.toNat - '0'.toNat = first at hc
      calc 10 ^ rest.length * first + Nat.ofDigitChars 10 rest 0
          < 10 ^ rest.length * first + 10 ^ rest.length := Nat.add_lt_add_left hrest _
        _ = 10 ^ rest.length * (first + 1) := by ring
        _ ≤ 10 ^ rest.length * 10 := Nat.mul_le_mul_left _ hc

/-! ## Grammar -/

/-- A sign, or none. -/
inductive Sign where
  | none
  | plus
  | minus

namespace Sign

/-- The characters of a sign. -/
def chars : Sign → List Char
  | none => []
  | plus => ['+']
  | minus => ['-']

/-- Whether the number behind the sign is negative. -/
def negative : Sign → Bool
  | minus => true
  | _ => false

/-- A sign is taken off what follows it. -/
theorem sign_chars_append (s : Sign) {c : Char} {rest : List Char} (hminus : c ≠ '-')
    (hplus : c ≠ '+') : sign (s.chars ++ c :: rest) = (s.negative, c :: rest) := by
  cases s with
  | none => exact sign_of_unsigned hminus hplus
  | plus => rfl
  | minus => rfl

/-- A sign is told from what follows it. -/
theorem chars_append_inj {s s' : Sign} {c c' : Char} {rest rest' : List Char}
    (hc : c ≠ '-' ∧ c ≠ '+') (hc' : c' ≠ '-' ∧ c' ≠ '+')
    (heq : s.chars ++ c :: rest = s'.chars ++ c' :: rest') :
    s = s' ∧ c :: rest = c' :: rest' := by
  cases s <;> cases s' <;> grind [chars]

theorem bare_of_mem_chars {s : Sign} {c : Char} (hc : c ∈ s.chars) : Bare c := by
  cases s with
  | none => cases hc
  | plus =>
      rw [List.mem_singleton.1 hc]
      exact ⟨by decide, by decide, by decide⟩
  | minus =>
      rw [List.mem_singleton.1 hc]
      exact ⟨by decide, by decide, by decide⟩

end Sign

theorem ne_sign_of_digit {c : Char} (hdigit : Digit c) : c ≠ '-' ∧ c ≠ '+' := by
  constructor
  · rintro rfl
    exact absurd hdigit (by decide)
  · rintro rfl
    exact absurd hdigit (by decide)

/-- A power of ten: its letter, its sign and its digits. -/
@[ext]
structure PowerText where
  letter : Char
  sign : Sign
  digits : List Char
  letter_eq : letter = 'e' ∨ letter = 'E'
  digits_ok : Digits digits

namespace PowerText

/-- The characters of a power of ten: its letter, its sign and its digits. -/
def chars (power : PowerText) : List Char :=
  power.letter :: (power.sign.chars ++ power.digits)

/-- The power that the digits spell, with its sign. -/
def value (power : PowerText) : Int :=
  let magnitude : Int := Nat.ofDigitChars 10 power.digits 0
  if power.sign.negative then -magnitude else magnitude

/-- The digits of a power of ten begin with a character that is no sign. -/
theorem exists_digits_eq (power : PowerText) :
    ∃ c rest, power.digits = c :: rest ∧ c ≠ '-' ∧ c ≠ '+' := by
  have hdigits := power.digits_ok
  cases hlist : power.digits with
  | nil => exact absurd hlist hdigits.1
  | cons c rest =>
      rw [hlist] at hdigits
      exact ⟨c, rest, rfl, ne_sign_of_digit (hdigits.2 c List.mem_cons_self)⟩

/-- A text is a power of ten in one form. -/
theorem chars_injective : Function.Injective chars := by
  intro power power' heq
  rcases List.cons.inj heq with ⟨hletter, hrest⟩
  rcases power.exists_digits_eq with ⟨c, rest, hdigits, hc⟩
  rcases power'.exists_digits_eq with ⟨c', rest', hdigits', hc'⟩
  rw [hdigits, hdigits'] at hrest
  rcases Sign.chars_append_inj hc hc' hrest with ⟨hsign, hsame⟩
  exact PowerText.ext hletter hsign (hdigits.trans (hsame.trans hdigits'.symm))

/-- A power of ten is read as the power that it spells. -/
theorem exponent?_chars (power : PowerText) : exponent? power.chars = some power.value := by
  have hall : power.digits.all Char.isDigit = true := by
    rw [List.all_eq_true]
    exact fun c hc => (power.digits_ok.2 c hc).isDigit
  rcases power.exists_digits_eq with ⟨c, rest, hdigits, hminus, hplus⟩
  have hsign : Numeral.sign (power.sign.chars ++ power.digits) =
      (power.sign.negative, power.digits) := by
    rw [hdigits]
    exact power.sign.sign_chars_append hminus hplus
  rw [chars, exponent?, hsign]
  dsimp only
  rw [if_pos ⟨power.letter_eq, power.digits_ok.1, hall⟩]
  rfl

/-- Digits in front of a power of ten end where it begins. -/
theorem stops_chars (power : PowerText) : Stops power.chars := by
  rintro c more heq
  rw [← (List.cons.inj heq).1]
  rcases power.letter_eq with hletter | hletter
  · rw [hletter]
    decide
  · rw [hletter]
    decide

theorem bare_of_mem_chars {power : PowerText} {c : Char} (hc : c ∈ power.chars) : Bare c := by
  rcases List.mem_cons.1 hc with rfl | hc
  · rcases power.letter_eq with hletter | hletter
    · rw [hletter]
      exact ⟨by decide, by decide, by decide⟩
    · rw [hletter]
      exact ⟨by decide, by decide, by decide⟩
  · rcases List.mem_append.1 hc with hc | hc
    · exact Sign.bare_of_mem_chars hc
    · exact bare_of_plain (Or.inl (power.digits_ok.2 c hc))

end PowerText

/-- The characters of a power of ten, if there is one. -/
def powerChars : Option PowerText → List Char
  | none => []
  | some power => power.chars

/-- An optional power of ten is determined by its characters. -/
theorem powerChars_injective : Function.Injective powerChars := by
  intro power power' heq
  cases power with
  | none =>
      cases power' with
      | none => rfl
      | some power' => cases heq
  | some power =>
      cases power' with
      | none => cases heq
      | some power' => exact congrArg some (PowerText.chars_injective heq)

/-- Digits end in front of a power of ten, or at the end. -/
theorem stops_powerChars (power : Option PowerText) : Stops (powerChars power) := by
  cases power with
  | none => exact nofun
  | some power => exact power.stops_chars

/-- Where there is no power of ten, it is read as zero. -/
theorem exponent?_powerChars (power : Option PowerText) :
    exponent? (powerChars power) = some ((power.map PowerText.value).getD 0) := by
  cases power with
  | none => rfl
  | some power => exact power.exponent?_chars

/-- A decimal text: its sign, its digits in front of the point, the point with the digits
behind it if there is one, and its power of ten if there is one. -/
@[ext]
structure DecimalText where
  sign : Sign
  whole : List Char
  part : Option (List Char)
  power : Option PowerText
  whole_ok : ∀ c ∈ whole, Digit c
  part_ok : ∀ c ∈ part.getD [], Digit c
  nonempty : whole ++ part.getD [] ≠ []

namespace DecimalText

/-- The text without its sign. -/
def unsigned (w : DecimalText) : List Char :=
  w.whole ++ fractionChars w.part ++ powerChars w.power

/-- The characters of a decimal text: its sign and what follows. -/
def chars (w : DecimalText) : List Char :=
  w.sign.chars ++ w.unsigned

/-! ## The number it stands for -/

/-- All digits but those of the power of ten. -/
def digits (w : DecimalText) : List Char :=
  w.whole ++ w.part.getD []

/-- The natural number that all digits but those of the power of ten spell. -/
def significand (w : DecimalText) : Nat :=
  Nat.ofDigitChars 10 w.digits 0

/-- The power of ten that the last digit counts. -/
def exponent (w : DecimalText) : Int :=
  (w.power.map PowerText.value).getD 0 - (w.part.getD []).length

/-- The rational number that the text stands for, without its sign. -/
def magnitude (w : DecimalText) : ℚ :=
  w.significand * 10 ^ w.exponent

/-- The rational number that the text stands for. -/
def value (w : DecimalText) : ℚ :=
  withSign w.sign.negative w.magnitude

theorem digits_ok (w : DecimalText) : Digits w.digits := by
  refine ⟨w.nonempty, fun c hc => ?_⟩
  rcases List.mem_append.1 hc with hc | hc
  · exact w.whole_ok c hc
  · exact w.part_ok c hc

/-! ## Reading -/

/-- The characters of a decimal text are bare. -/
theorem bare_of_mem_chars {w : DecimalText} {c : Char} (hc : c ∈ w.chars) : Bare c := by
  have hpoint : Bare '.' := bare_of_plain (Or.inr rfl)
  simp only [chars, unsigned, List.mem_append] at hc
  rcases hc with hc | (hc | hc) | hc
  · exact Sign.bare_of_mem_chars hc
  · exact bare_of_plain (Or.inl (w.whole_ok c hc))
  · have hpart := w.part_ok
    cases hsome : w.part with
    | none =>
        rw [hsome] at hc
        cases hc
    | some part =>
        rw [hsome] at hc hpart
        rcases List.mem_cons.1 hc with rfl | hc
        · exact hpoint
        · exact bare_of_plain (Or.inl (hpart c hc))
  · cases hpower : w.power with
    | none =>
        rw [hpower] at hc
        cases hc
    | some power =>
        rw [hpower] at hc
        exact PowerText.bare_of_mem_chars hc

/-- What follows the sign begins with a digit or a point. -/
theorem exists_unsigned_eq (w : DecimalText) :
    ∃ c rest, w.unsigned = c :: rest ∧ c ≠ '-' ∧ c ≠ '+' := by
  have hwhole := w.whole_ok
  have hne := w.nonempty
  unfold unsigned
  cases hlist : w.whole with
  | cons c rest =>
      rw [hlist] at hwhole
      exact ⟨c, _, rfl, ne_sign_of_digit (hwhole c List.mem_cons_self)⟩
  | nil =>
      cases hpart : w.part with
      | none => simp [hlist, hpart] at hne
      | some part => exact ⟨'.', _, rfl, by decide, by decide⟩

theorem chars_ne_nil (w : DecimalText) : w.chars ≠ [] := by
  rcases w.exists_unsigned_eq with ⟨c, rest, hunsigned, -, -⟩
  rw [chars, hunsigned]
  exact List.append_ne_nil_of_right_ne_nil _ (List.cons_ne_nil c rest)

/-- A decimal text denotes the number nearest to the natural number that its digits spell,
times its power of ten, divided by ten for every digit behind the point. -/
theorem read?_chars (w : DecimalText) :
    read? w.chars = some (ofDecimal w.sign.negative w.significand w.exponent) := by
  have hbare : ∀ c ∈ w.chars, Bare c := fun c hc => bare_of_mem_chars hc
  have hsign : Numeral.sign w.chars = (w.sign.negative, w.unsigned) := by
    rcases w.exists_unsigned_eq with ⟨c, rest, hunsigned, hminus, hplus⟩
    rw [chars, hunsigned]
    exact w.sign.sign_chars_append hminus hplus
  have hdecimal := decimal?_of_parts w.whole_ok w.part_ok w.nonempty
    (stops_powerChars w.power) (exponent?_powerChars w.power) w.sign.negative
  have hcount : (w.part.getD []).length ≤ (w.whole ++ w.part.getD []).length := by
    rw [List.length_append]
    exact Nat.le_add_left _ _
  have hvalue : Nat.ofDigitChars 10 (w.whole ++ w.part.getD []) 0 <
      10 ^ (w.whole ++ w.part.getD []).length := ofDigitChars_lt w.digits_ok.2
  rw [Binary64.ofDecimal_boundedExponent _ hvalue hcount] at hdecimal
  rw [read?_of_bare hbare hsign, unsigned, hdecimal]
  rfl

/-- A decimal text is read as the number to which it rounds. -/
theorem read?_chars_eq_some_iff (w : DecimalText) (x : Binary64) :
    read? w.chars = some x ↔ Rounds w.sign.negative w.magnitude x := by
  have hrounds := Binary64.rounds_ofDecimal w.sign.negative w.significand w.exponent
  rw [read?_chars, Option.some_inj]
  constructor
  · rintro rfl
    exact hrounds
  · exact hrounds.unique

theorem magnitude_nonneg (w : DecimalText) : 0 ≤ w.magnitude :=
  Binary64.decimal_nonneg w.significand w.exponent

/-! ## A text has one form -/

/-- A fraction is told from what follows it. -/
theorem fractionChars_append_inj {part part' : Option (List Char)} {rest rest' : List Char}
    (hpart : ∀ c ∈ part.getD [], Digit c) (hpart' : ∀ c ∈ part'.getD [], Digit c)
    (hrest : Stops rest) (hrest' : Stops rest')
    (heq : fractionChars part ++ rest = fractionChars part' ++ rest') :
    part = part' ∧ rest = rest' := by
  cases part with
  | none =>
      cases part' with
      | none => exact ⟨rfl, heq⟩
      | some digits' => exact absurd rfl (hrest _ _ heq).2
  | some digits =>
      cases part' with
      | none => exact absurd rfl (hrest' _ _ heq.symm).2
      | some digits' =>
          rcases Lexeme.append_inj_of_takeWhile (fun c hc => (hpart c hc).isDigit)
            (fun c hc => (hpart' c hc).isDigit) hrest.takeWhile_eq hrest'.takeWhile_eq
            (List.cons.inj heq).2 with ⟨rfl, hsame⟩
          exact ⟨rfl, hsame⟩

/-- A text is a decimal text in one form. -/
theorem chars_injective : Function.Injective chars := by
  intro w w' heq
  rcases w.exists_unsigned_eq with ⟨c, rest, hunsigned, hc⟩
  rcases w'.exists_unsigned_eq with ⟨c', rest', hunsigned', hc'⟩
  rw [chars, chars, hunsigned, hunsigned'] at heq
  rcases Sign.chars_append_inj hc hc' heq with ⟨hsign, hrest⟩
  rw [← hunsigned, ← hunsigned', unsigned, unsigned, List.append_assoc,
    List.append_assoc] at hrest
  have hstop (u : DecimalText) :
      (fractionChars u.part ++ powerChars u.power).takeWhile Char.isDigit = [] := by
    cases u.part with
    | none => exact (stops_powerChars u.power).takeWhile_eq
    | some part => rfl
  rcases Lexeme.append_inj_of_takeWhile (fun c hc => (w.whole_ok c hc).isDigit)
    (fun c hc => (w'.whole_ok c hc).isDigit) (hstop w) (hstop w') hrest with ⟨hwhole, hafter⟩
  rcases fractionChars_append_inj w.part_ok w'.part_ok (stops_powerChars w.power)
    (stops_powerChars w'.power) hafter with ⟨hpart, hpower⟩
  exact DecimalText.ext hsign hwhole hpart (powerChars_injective hpower)

end DecimalText
end Numeral
end Lox
