import Lox.Proofs.Decimal.ReadBack
import Lox.Proofs.Numeral.DecimalText

/-!
# Digits and notations of decimal texts

Zeros in front of the digits of a decimal text and behind its fraction change nothing, and the
other digits are significant.  A text in positional notation has no power of ten, and digits on
both sides of its point; a text in scientific notation has one digit in front of its point, and
a power of ten with a sign and two digits at least.

Main results:

- Theorem {lit}`magnitude_pad`: zeros around the digits change no value.
- Theorem {lit}`length_significantDigits_le`: the significant digits are no more than those
  between any zeros.
- Theorem {lit}`accepts_number_iff`: the numbers of the language are the texts in positional
  notation without a sign.
- Theorem {lit}`Positional.point_mem_chars_iff`, {lit}`Scientific.not_isSuffix`: points and
  endings.
-/

namespace Lox
namespace Numeral
namespace DecimalText

open Lexeme (Digit Digits)

/-! ## Zeros around the digits -/

/-- With zeros around them the digits spell the same number, for a greater power of ten. -/
theorem magnitude_of_digits_eq {w : DecimalText} {inner : List Char} {before after : Nat}
    (hdigits : w.digits = List.replicate before '0' ++ inner ++ List.replicate after '0') :
    w.magnitude = Nat.ofDigitChars 10 inner 0 * 10 ^ (w.exponent + after) := by
  rw [magnitude, significand, hdigits, Nat.ofDigitChars_append, Nat.ofDigitChars_append,
    Nat.ofDigitChars_replicate_zero, Nat.ofDigitChars_replicate_zero, Nat.mul_zero,
    zpow_add₀ (by norm_num), zpow_natCast]
  push_cast
  ring

/-- A fraction with zeros behind its digits.  Without a point there is no fraction unless there
are zeros. -/
def padFraction (part : Option (List Char)) (after : Nat) : Option (List Char) :=
  if part = none ∧ after = 0 then none
  else some (part.getD [] ++ List.replicate after '0')

theorem getD_padFraction (part : Option (List Char)) (after : Nat) :
    (padFraction part after).getD [] = part.getD [] ++ List.replicate after '0' := by
  unfold padFraction
  split
  · rename_i hnone
    rw [hnone.1, hnone.2]
    rfl
  · rfl

theorem padFraction_ne {part : Option (List Char)} (hpart : part ≠ some []) (after : Nat) :
    padFraction part after ≠ some [] := by
  unfold padFraction
  split
  · nofun
  · rename_i hsome
    rw [ne_eq, Option.some_inj, List.append_eq_nil_iff, List.replicate_eq_nil_iff]
    rintro ⟨hdigits, hafter⟩
    cases part with
    | none => exact hsome ⟨rfl, hafter⟩
    | some digits => exact hpart (congrArg some hdigits)

/-- The text with zeros in front of its digits and behind its fraction. -/
def pad (w : DecimalText) (before after : Nat) : DecimalText where
  sign := w.sign
  whole := List.replicate before '0' ++ w.whole
  part := padFraction w.part after
  power := w.power
  whole_ok := by
    intro c hc
    rcases List.mem_append.1 hc with hc | hc
    · rw [List.eq_of_mem_replicate hc]
      decide
    · exact w.whole_ok c hc
  part_ok := by
    intro c hc
    rw [getD_padFraction] at hc
    rcases List.mem_append.1 hc with hc | hc
    · exact w.part_ok c hc
    · rw [List.eq_of_mem_replicate hc]
      decide
  nonempty := by
    intro hnone
    rw [getD_padFraction, List.append_eq_nil_iff, List.append_eq_nil_iff,
      List.append_eq_nil_iff] at hnone
    exact w.nonempty (List.append_eq_nil_iff.2 ⟨hnone.1.2, hnone.2.1⟩)

/-- Zeros around the digits change no value. -/
theorem magnitude_pad (w : DecimalText) (before after : Nat) :
    (w.pad before after).magnitude = w.magnitude := by
  have hdigits : (w.pad before after).digits =
      List.replicate before '0' ++ w.digits ++ List.replicate after '0' := by
    rw [digits, pad, getD_padFraction, digits]
    simp only [List.append_assoc]
  have hexponent : (w.pad before after).exponent + after = w.exponent := by
    rw [exponent, pad, getD_padFraction, exponent, List.length_append, List.length_replicate]
    push_cast
    ring
  rw [magnitude_of_digits_eq hdigits, hexponent, magnitude, significand]

/-! ## Significant digits -/

/-- The digits without the zeros in front of them and behind them. -/
def significantDigits (w : DecimalText) : List Char :=
  ((w.digits.dropWhile (· == '0')).reverse.dropWhile (· == '0')).reverse

/-- The digits of a text are its significant digits with zeros around them. -/
theorem exists_digits_eq (w : DecimalText) :
    ∃ before after : Nat, w.digits =
      List.replicate before '0' ++ w.significantDigits ++ List.replicate after '0' := by
  have hsplit := List.takeWhile_append_dropWhile (p := (· == '0')) (l := w.digits)
  rcases Decimal.exists_digits_eq ⟨w.digits.dropWhile (· == '0'), 0⟩ with ⟨after, hafter⟩
  refine ⟨(w.digits.takeWhile (· == '0')).length, after, ?_⟩
  rw [List.append_assoc, ← Decimal.takeWhile_zero_eq]
  exact hsplit.symm.trans (congrArg _ hafter)

/-- The significant digits are no more than those between any zeros. -/
theorem length_significantDigits_le {w : DecimalText} {inner : List Char} {before after : Nat}
    (hdigits : w.digits = List.replicate before '0' ++ inner ++ List.replicate after '0') :
    w.significantDigits.length ≤ inner.length := by
  have hzero (count : Nat) : ∀ c ∈ List.replicate count '0', (c == '0') = true := by
    intro c hc
    rw [List.eq_of_mem_replicate hc]
    rfl
  rw [significantDigits, hdigits, List.append_assoc,
    List.dropWhile_append_of_pos (hzero before), List.length_reverse, List.dropWhile_append]
  split
  · rw [List.dropWhile_eq_nil_iff.2 (hzero after)]
    exact Nat.zero_le _
  · rw [List.reverse_append, List.reverse_replicate,
      List.dropWhile_append_of_pos (hzero after)]
    have houter : ((inner.dropWhile (· == '0')).reverse.dropWhile (· == '0')).length ≤
        (inner.dropWhile (· == '0')).reverse.length := (List.dropWhile_suffix _).length_le
    have hinner : (inner.dropWhile (· == '0')).length ≤ inner.length :=
      (List.dropWhile_suffix _).length_le
    rw [List.length_reverse] at houter
    exact houter.trans hinner

/-- What a decimal text stands for is a natural number with no more digits than it has
significant digits, times a power of ten. -/
theorem exists_magnitude_eq (w : DecimalText) :
    ∃ (significand : Nat) (exponent : Int),
      significand < 10 ^ w.significantDigits.length ∧
        w.magnitude = significand * 10 ^ exponent := by
  rcases w.exists_digits_eq with ⟨before, after, hdigits⟩
  have hsignificant : ∀ c ∈ w.significantDigits, Digit c := fun c hc => by
    apply w.digits_ok.2
    rw [hdigits]
    exact List.mem_append_left _ (List.mem_append_right _ hc)
  exact ⟨Nat.ofDigitChars 10 w.significantDigits 0, w.exponent + after,
    ofDigitChars_lt hsignificant, magnitude_of_digits_eq hdigits⟩

/-! ## Positional notation -/

/-- A text without a power of ten whose point, if there is one, has digits on both sides. -/
structure Positional (w : DecimalText) : Prop where
  power_eq : w.power = none
  whole_ne : w.whole ≠ []
  part_ne : w.part ≠ some []

/-- A positional text is a sign and digits, with a point among them or none. -/
theorem Positional.chars_eq {w : DecimalText} (hpositional : w.Positional) :
    w.chars = w.sign.chars ++ pointed w.whole (w.part.getD []) := by
  have hpart := hpositional.part_ne
  rw [chars, unsigned, hpositional.power_eq, powerChars, List.append_nil, pointed]
  cases hsome : w.part with
  | none => simp [fractionChars]
  | some part =>
      rw [hsome, ne_eq, Option.some_inj] at hpart
      simp [fractionChars, hpart]

/-- A positional text stays positional with more zeros around it. -/
theorem Positional.pad {w : DecimalText} (hpositional : w.Positional) (before after : Nat) :
    (w.pad before after).Positional :=
  ⟨hpositional.power_eq, List.append_ne_nil_of_right_ne_nil _ hpositional.whole_ne,
    padFraction_ne hpositional.part_ne after⟩

/-- The decimal text of digits and digits behind a point. -/
def ofPointed (s : Sign) {whole part : List Char} (hwhole : Digits whole)
    (hpart : ∀ c ∈ part, Digit c) : DecimalText where
  sign := s
  whole := whole
  part := if part = [] then none else some part
  power := none
  whole_ok := hwhole.2
  part_ok := by
    split
    · nofun
    · exact hpart
  nonempty := List.append_ne_nil_of_left_ne_nil hwhole.1 _

theorem part_ofPointed (s : Sign) {whole part : List Char} (hwhole : Digits whole)
    (hpart : ∀ c ∈ part, Digit c) : (ofPointed s hwhole hpart).part.getD [] = part := by
  unfold ofPointed
  dsimp only
  split
  · rename_i hnone
    rw [hnone]
    rfl
  · rfl

/-- A text that is made of digits and a point is positional. -/
theorem positional_ofPointed (s : Sign) {whole part : List Char} (hwhole : Digits whole)
    (hpart : ∀ c ∈ part, Digit c) : (ofPointed s hwhole hpart).Positional := by
  refine ⟨rfl, hwhole.1, ?_⟩
  unfold ofPointed
  dsimp only
  split
  · nofun
  · rename_i hne
    rw [ne_eq, Option.some_inj]
    exact hne

theorem chars_ofPointed (s : Sign) {whole part : List Char} (hwhole : Digits whole)
    (hpart : ∀ c ∈ part, Digit c) :
    (ofPointed s hwhole hpart).chars = s.chars ++ pointed whole part := by
  rw [(positional_ofPointed s hwhole hpart).chars_eq, part_ofPointed]
  rfl

/-- The numbers of the language are the texts in positional notation without a sign. -/
theorem accepts_number_iff (text : List Char) :
    Lexeme.Shape.number.Accepts text ↔
      ∃ w : DecimalText, w.chars = text ∧ w.sign = .none ∧ w.Positional := by
  constructor
  · intro haccepts
    rcases exists_pointed_of_number haccepts with ⟨whole, part, rfl, hwhole, hpart⟩
    exact ⟨ofPointed .none hwhole hpart, chars_ofPointed .none hwhole hpart, rfl,
      positional_ofPointed .none hwhole hpart⟩
  · rintro ⟨w, rfl, hsign, hpositional⟩
    rw [hpositional.chars_eq, hsign]
    exact accepts_pointed ⟨hpositional.whole_ne, w.whole_ok⟩ w.part_ok

/-- A text in positional notation has signs, digits and points only. -/
theorem Positional.of_mem_chars {w : DecimalText} (hpositional : w.Positional) {c : Char}
    (hc : c ∈ w.chars) : c ∈ w.sign.chars ∨ Digit c ∨ c = '.' := by
  rw [hpositional.chars_eq, List.mem_append] at hc
  exact hc.imp_right fun hc => plain_pointed w.whole_ok w.part_ok c hc

/-- A text in positional notation has no letter. -/
theorem Positional.not_mem_chars {w : DecimalText} (hpositional : w.Positional) {c : Char}
    (hletter : c = 'e' ∨ c = 'n') : c ∉ w.chars := by
  intro hc
  rcases hpositional.of_mem_chars hc with hsign | hdigit | rfl
  · rcases hletter with rfl | rfl <;> cases hkind : w.sign <;> simp [hkind, Sign.chars] at hsign
  · rcases hletter with rfl | rfl <;> exact absurd hdigit (by decide)
  · rcases hletter with hletter | hletter <;> exact absurd hletter (by decide)

/-- A text in positional notation has a point exactly if it has a fraction. -/
theorem Positional.point_mem_chars_iff {w : DecimalText} (hpositional : w.Positional) :
    '.' ∈ w.chars ↔ w.part ≠ none := by
  constructor
  · intro hpoint hnone
    rw [hpositional.chars_eq, hnone, pointed, Option.getD_none, if_pos rfl, List.append_nil,
      List.mem_append] at hpoint
    rcases hpoint with hsign | hwhole
    · cases hkind : w.sign <;> simp [hkind, Sign.chars] at hsign
    · exact absurd (w.whole_ok '.' hwhole) (by decide)
  · intro hsome
    rcases Option.ne_none_iff_exists'.1 hsome with ⟨part, hpart⟩
    simp [chars, unsigned, hpart, fractionChars]

/-- A text with a fraction ends in the last one of its digits. -/
theorem Positional.getLast?_chars {w : DecimalText} (hpositional : w.Positional)
    (hsome : w.part ≠ none) : w.chars.getLast? = w.digits.getLast? := by
  rcases Option.ne_none_iff_exists'.1 hsome with ⟨part, hpart⟩
  have hne := hpositional.part_ne
  rw [hpart, ne_eq, Option.some_inj] at hne
  rw [hpositional.chars_eq, digits, hpart, Option.getD_some, pointed, if_neg hne,
    List.getLast?_append_of_ne_nil _ hne, ← List.append_assoc, List.getLast?_append_cons,
    List.getLast?_cons_of_ne_nil hne]

/-! ## Scientific notation -/

/-- One digit, a point with digits behind it or none, and a power of ten with a sign and two
digits at least. -/
structure Scientific (w : DecimalText) : Prop where
  whole_length : w.whole.length = 1
  part_ne : w.part ≠ some []
  power_eq : ∃ power, w.power = some power ∧ power.letter = 'e' ∧ power.sign ≠ .none ∧
    2 ≤ power.digits.length

theorem Scientific.mem_chars {w : DecimalText} (hscientific : w.Scientific) :
    'e' ∈ w.chars := by
  rcases hscientific.power_eq with ⟨power, hpower, hletter, -, -⟩
  simp [chars, unsigned, hpower, powerChars, PowerText.chars, hletter]

/-- A text in scientific notation ends in two digits. -/
theorem Scientific.not_isSuffix {w : DecimalText} (hscientific : w.Scientific) :
    ¬['.', '0'] <:+ w.chars := by
  intro hsuffix
  rcases hscientific.power_eq with ⟨power, hpower, -, -, hlength⟩
  have hdigits : power.digits <:+ w.chars := by
    rw [chars, unsigned, hpower]
    exact ⟨w.sign.chars ++ (w.whole ++ fractionChars w.part) ++
      power.letter :: power.sign.chars, by simp [powerChars, PowerText.chars]⟩
  have hinside := List.suffix_of_suffix_length_le hsuffix hdigits hlength
  exact absurd (power.digits_ok.2 '.' (hinside.subset List.mem_cons_self)) (by decide)

end DecimalText
end Numeral
end Lox
