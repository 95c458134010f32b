import Lox.Proofs.Decimal.Notation
import Lox.Proofs.Decimal.NumberText
import Lox.Proofs.Numeral.TextForms
import Lox.Value

/-!
# Number text is exact, shortest and canonical

The text of a number is read back as it, and no decimal text that is has fewer significant
digits, or as many and is nearer.  Its notation is positional exactly for the zeros and the
magnitudes from a ten thousandth to ten to the power of sixteen, with a point exactly if the
number is no integer; all other texts of finite numbers are in scientific notation.  Numbers
with one text have the same bits, or are not-a-number.

Main results:

- Theorem {lit}`Decimal.exists_positional_text`, {lit}`Decimal.exists_scientific_text`: the
  texts of a decimal.
- Theorem {lit}`Binary64.toBits_ofBits`: the bits of a number are those it was made of.
- Theorem {lit}`Value.text_number_eq_dump`: the text of a number is that of a dump less the point
  and the zero of a whole number.
- Theorem {lit}`number_text_canonical`: the text of every number.
-/

namespace Lox

open Lexeme (Digit Digits)
open Numeral (DecimalText PowerText Sign pointed powerChars)

namespace Numeral

/-! ## Signs -/

/-- The sign in front of a number's text. -/
def Sign.ofBool (negative : Bool) : Sign :=
  if negative then minus else none

theorem Sign.chars_ofBool (negative : Bool) :
    (ofBool negative).chars = Binary64.signChars negative := by
  cases negative <;> rfl

theorem Sign.negative_ofBool (negative : Bool) : (ofBool negative).negative = negative := by
  cases negative <;> rfl

end Numeral

namespace Decimal

/-! ## The texts of a decimal -/

/-- The text has the digits of the decimal with zeros around them, and stands for it. -/
structure WrittenAs (d : Decimal) (w : DecimalText) : Prop where
  digits_eq : ∃ before after : Nat,
    w.digits = List.replicate before '0' ++ d.digits ++ List.replicate after '0' ∧
      w.exponent + after = d.exponent

/-- Zeros around the digits of a decimal do not change its value. -/
theorem WrittenAs.magnitude_eq {d : Decimal} {w : DecimalText} (hwritten : d.WrittenAs w) :
    w.magnitude = d.value := by
  rcases hwritten.digits_eq with ⟨before, after, hdigits, hexponent⟩
  rw [DecimalText.magnitude_of_digits_eq hdigits, hexponent, value, significand]

/-- A text of a decimal has no significant digits but those of the decimal. -/
theorem WrittenAs.length_significantDigits_le {d : Decimal} {w : DecimalText}
    (hwritten : d.WrittenAs w) : w.significantDigits.length ≤ d.digits.length := by
  rcases hwritten.digits_eq with ⟨before, after, hdigits, -⟩
  exact DecimalText.length_significantDigits_le hdigits

/-- The positional text of a decimal.  It has a fraction exactly if the last digit counts less
than ones, and then it ends in this digit. -/
theorem exists_positional_text {d : Decimal} (hdigits : Digits d.digits) (s : Sign) :
    ∃ w : DecimalText, w.chars = s.chars ++ d.positional .lox ∧ w.sign = s ∧ w.Positional ∧
      d.WrittenAs w ∧ (w.part = none ↔ 0 ≤ d.exponent) ∧
      (w.part ≠ none → d.digits <:+ w.digits) := by
  rcases exists_layout hdigits with ⟨whole, part, htext, hwhole, hpart, before, after,
    hlayout, hexponent, hzeros⟩
  have hdigits : (DecimalText.ofPointed s hwhole hpart).digits = whole ++ part := by
    rw [DecimalText.digits, DecimalText.part_ofPointed]
    rfl
  have hnone : (DecimalText.ofPointed s hwhole hpart).part = none ↔ part = [] := by
    unfold DecimalText.ofPointed
    dsimp only
    split
    · rename_i hempty
      exact iff_of_true rfl hempty
    · rename_i hsome
      exact iff_of_false (Option.some_ne_none part) hsome
  refine ⟨.ofPointed s hwhole hpart, ?_, rfl, DecimalText.positional_ofPointed s hwhole hpart,
    ⟨before, after, hdigits.trans hlayout, ?_⟩, ?_, ?_⟩
  · rw [DecimalText.chars_ofPointed, htext]
  · rw [DecimalText.exponent, DecimalText.part_ofPointed]
    change 0 - (part.length : Int) + after = d.exponent
    omega
  · rw [hnone]
    constructor
    · rintro rfl
      simp only [List.length_nil] at hexponent
      omega
    · intro hnonneg
      by_contra hsome
      have hlength := List.length_pos_iff.2 hsome
      have hafter := hzeros.resolve_left hsome
      omega
  · intro hsome
    have hafter := hzeros.resolve_left (mt hnone.2 hsome)
    rw [hdigits, hlayout, hafter]
    exact ⟨List.replicate before '0', by simp⟩

/-- The power of ten in a scientific text. -/
def powerText (exponent : Int) : PowerText where
  letter := 'e'
  sign := if exponent < 0 then .minus else .plus
  digits := (Nat.toDigits 10 exponent.natAbs).leftpad 2 '0'
  letter_eq := .inl rfl
  digits_ok := by
    refine ⟨?_, fun c hc => digit_of_mem_leftpad hc⟩
    simp [List.leftpad]

/-- The power of ten of a scientific text is written behind its letter. -/
theorem chars_powerText (exponent : Int) :
    (powerText exponent).chars = 'e' :: exponentText exponent := by
  by_cases hnegative : exponent < 0 <;>
    simp [powerText, PowerText.chars, exponentText, hnegative, Sign.chars]

/-- The power of ten of a scientific text is the one that it was made of. -/
theorem value_powerText (exponent : Int) : (powerText exponent).value = exponent := by
  have hvalue := (powerText exponent).exponent?_chars
  rw [chars_powerText, exponent?_exponentText] at hvalue
  exact (Option.some_inj.1 hvalue).symm

/-- The scientific text of a decimal. -/
theorem exists_scientific_text {d : Decimal} (hdigits : Digits d.digits) (s : Sign) :
    ∃ w : DecimalText, w.chars = s.chars ++ d.scientific ∧ w.sign = s ∧ w.Scientific ∧
      d.WrittenAs w := by
  rcases hdigits with ⟨hne, hdigits⟩
  cases hlist : d.digits with
  | nil => exact absurd hlist hne
  | cons first rest =>
      rw [hlist, List.forall_mem_cons] at hdigits
      have hwhole : Digits [first] := ⟨List.cons_ne_nil first [], by simpa using hdigits.1⟩
      have hpart := DecimalText.part_ofPointed s hwhole hdigits.2
      have hchars := DecimalText.chars_ofPointed s hwhole hdigits.2
      have hpositional := DecimalText.positional_ofPointed s hwhole hdigits.2
      have hpower : (powerText (d.point - 1)).sign ≠ .none := by
        unfold powerText
        dsimp only
        split <;> nofun
      refine ⟨{ DecimalText.ofPointed s hwhole hdigits.2 with
        power := some (powerText (d.point - 1)) }, ?_, rfl, ⟨rfl, hpositional.part_ne, _, rfl,
        rfl, hpower, ?_⟩, 0, 0, ?_, ?_⟩
      · have htext : d.scientific = pointed [first] rest ++ (powerText (d.point - 1)).chars := by
          rw [chars_powerText]
          cases rest <;> simp [scientific, hlist, pointed]
        rw [htext, ← List.append_assoc, ← hchars]
        simp [DecimalText.chars, DecimalText.unsigned, DecimalText.ofPointed, powerChars]
      · simp only [powerText, List.leftpad, List.length_append, List.length_replicate]
        omega
      · rw [DecimalText.digits, hpart, hlist]
        simp [DecimalText.ofPointed]
      · rw [DecimalText.exponent, hpart, exponent, hlist]
        change (powerText (d.point - 1)).value - (rest.length : Int) + 0 = _
        rw [value_powerText, List.length_cons]
        omega

end Decimal

namespace Binary64

/-! ## Bits -/

/-- The bits of a number are those it was made of. -/
theorem toBits_ofBits {bits : UInt64} (hnumber : ofBits bits ≠ .nan) :
    (ofBits bits).toBits = bits := by
  have hbits := bits.toNat_lt
  have hsplit : signBit (decide (signWeight ≤ bits.toNat)) + bits.toNat % signWeight =
      bits.toNat := by
    simp only [signWeight]
    by_cases hsign : 0x8000000000000000 ≤ bits.toNat
    · rw [decide_eq_true hsign, signBit, signWeight]
      omega
    · rw [decide_eq_false hsign, signBit]
      omega
  unfold ofBits at *
  dsimp only at *
  split at hnumber
  · rename_i hfinite
    rw [dif_pos hfinite, toBits]
    dsimp only
    rw [hsplit, UInt64.ofNat_toNat]
  · rename_i hlarge
    split at hnumber
    · rename_i hinfinite
      rw [dif_neg hlarge, if_pos hinfinite, toBits, ← hinfinite, hsplit, UInt64.ofNat_toNat]
    · exact absurd rfl hnumber

/-! ## The text of a finite number -/

/-- The text of a finite number writes its shortest decimal, in positional notation if the
number is moderate and in scientific notation if it is not. -/
theorem exists_text (negative : Bool) (rank : Fin rankLimit) :
    ∃ w : DecimalText, w.chars = chars .lox (.finite negative rank) ∧
      w.sign.negative = negative ∧ (Decimal.shortest rank).WrittenAs w ∧
      ((w.Positional ∧ Moderate (.finite negative rank) ∧
          (w.part = none ↔ 0 ≤ (Decimal.shortest rank).exponent) ∧
          (w.part ≠ none → (Decimal.shortest rank).digits <:+ w.digits)) ∨
        (w.Scientific ∧ ¬Moderate (.finite negative rank))) := by
  have hdigits := Decimal.digits_shortest rank
  rw [chars, ← Sign.chars_ofBool, ← Decimal.isPositional_shortest_iff, Decimal.chars]
  split
  · rename_i hpositional
    rcases Decimal.exists_positional_text hdigits (.ofBool negative) with
      ⟨w, hchars, hsign, hform, hwritten, hpart, hlast⟩
    refine ⟨w, hchars, ?_, hwritten, .inl ⟨hform, hpositional, hpart, hlast⟩⟩
    rw [hsign, Sign.negative_ofBool]
  · rename_i hpositional
    rcases Decimal.exists_scientific_text hdigits (.ofBool negative) with
      ⟨w, hchars, hsign, hform, hwritten⟩
    refine ⟨w, hchars, ?_, hwritten, .inr ⟨hform, hpositional⟩⟩
    rw [hsign, Sign.negative_ofBool]

/-- A text of a finite number rounds to it. -/
theorem rounds_of_writtenAs {negative : Bool} {rank : Fin rankLimit} {w : DecimalText}
    (hwritten : (Decimal.shortest rank).WrittenAs w) :
    Rounds negative w.magnitude (.finite negative rank) := by
  have hrounds := rounds_ofDecimal negative (Decimal.shortest rank).significand
    (Decimal.shortest rank).exponent
  rw [Decimal.ofDecimal_shortest] at hrounds
  rw [hwritten.magnitude_eq]
  exact hrounds

/-- No decimal text that is read back as the number has fewer significant digits, or as many
and is nearer. -/
theorem significantDigits_le_of_writtenAs {negative : Bool} {rank : Fin rankLimit}
    (hrank : rank.val ≠ 0) {w u : DecimalText}
    (hwritten : (Decimal.shortest rank).WrittenAs w) (hsign : w.sign.negative = negative)
    (hread : Numeral.read? u.chars = some (.finite negative rank)) :
    w.significantDigits.length ≤ u.significantDigits.length ∧
      (w.significantDigits.length = u.significantDigits.length →
        |withSign negative (exact rank) - w.value| ≤
          |withSign negative (exact rank) - u.value|) := by
  have hrounds := (u.read?_chars_eq_some_iff _).1 hread
  have hsame : u.sign.negative = negative := by
    cases hrounds
    rfl
  have hrounds := hrounds.of_finite false
  rcases u.exists_magnitude_eq with ⟨significand, exponent, hsignificand, hmagnitude⟩
  rw [hmagnitude] at hrounds
  have hlength := hwritten.length_significantDigits_le
  constructor
  · exact hlength.trans (Decimal.length_shortest_le hrank hsignificand hrounds)
  · intro heq
    rw [DecimalText.value, DecimalText.value, hsign, hsame, withSign_sub, withSign_sub,
      abs_withSign, abs_withSign, hwritten.magnitude_eq, hmagnitude]
    exact Decimal.abs_sub_shortest_le hrank hsignificand hrounds (heq ▸ hlength)

/-! ## Integers and the point -/

/-- A finite number is an integer exactly if its magnitude is. -/
theorem exists_toRat?_eq_iff (negative : Bool) (rank : Fin rankLimit) :
    (∃ n : Int, toRat? (.finite negative rank) = some (n : ℚ)) ↔ ∃ n : Nat, exact rank = n := by
  rw [toRat?]
  constructor
  · rintro ⟨n, hn⟩
    have hvalue := congrArg abs (Option.some_inj.1 hn)
    rw [abs_withSign, abs_of_nonneg (exact_nonneg rank)] at hvalue
    exact ⟨n.natAbs, by rw [hvalue, Nat.cast_natAbs, Int.cast_abs]⟩
  · rintro ⟨n, hn⟩
    refine ⟨signed negative n, ?_⟩
    rw [hn]
    cases negative <;> simp [withSign, signed]

/-- The last digit of a shortest decimal is no zero. -/
theorem getLast?_shortest {rank : Nat} (hrank : rank ≠ 0) :
    (Decimal.shortest rank).digits.getLast? ≠ some '0' := by
  rcases Decimal.exists_shortest_eq hrank with ⟨multiple, power, -, hshortest, -⟩
  rw [hshortest, Decimal.trim, List.getLast?_reverse]
  intro hzero
  have hfirst := List.head?_dropWhile_not (· == '0')
    (Decimal.ofNat multiple (power - 1074)).digits.reverse
  rw [hzero] at hfirst
  exact absurd hfirst (by decide)

theorem getLast?_of_isSuffix {text ending : List Char} (hsuffix : ending <:+ text)
    (hne : ending ≠ []) : text.getLast? = ending.getLast? := by
  rcases hsuffix with ⟨front, rfl⟩
  exact List.getLast?_append_of_ne_nil front hne

/-- No text of a finite number ends in a point and a zero. -/
theorem not_isSuffix_chars (negative : Bool) (rank : Fin rankLimit) :
    ¬['.', '0'] <:+ chars .lox (.finite negative rank) := by
  rcases exists_text negative rank with ⟨w, hchars, -, -, hform⟩
  rw [← hchars]
  rcases hform with ⟨hpositional, -, hpart, hlast⟩ | ⟨hscientific, -⟩
  · intro hsuffix
    have hsome := hpositional.point_mem_chars_iff.1 (hsuffix.subset List.mem_cons_self)
    have hrank : rank.val ≠ 0 := by
      intro hzero
      rw [hzero, Decimal.shortest_zero] at hpart
      exact hsome (hpart.2 (by decide))
    have hdigits : (Decimal.shortest rank).digits ≠ [] := (Decimal.digits_shortest rank).1
    have hzero : w.chars.getLast? = some '0' := getLast?_of_isSuffix hsuffix (by decide)
    rw [hpositional.getLast?_chars hsome, getLast?_of_isSuffix (hlast hsome) hdigits] at hzero
    exact getLast?_shortest hrank hzero
  · exact hscientific.not_isSuffix

/-! ## Every number -/

/-- The moderate numbers are the zeros and the magnitudes from {lit}`10 ^ -4` to
{lit}`10 ^ 16`. -/
theorem moderate_iff_toRat? (x : Binary64) :
    x.Moderate ↔
      ∃ q, x.toRat? = some q ∧ (q = 0 ∨ (1 / 10 ^ 4 ≤ |q| ∧ |q| < 10 ^ 16)) := by
  cases x with
  | finite negative rank =>
      have habs : |exact rank| = exact rank := abs_of_nonneg (exact_nonneg rank)
      rw [moderate_iff, toRat?]
      constructor
      · intro hmoderate
        refine ⟨_, rfl, ?_⟩
        rw [withSign_eq_zero_iff, abs_withSign, habs]
        exact hmoderate
      · rintro ⟨q, hq, hmoderate⟩
        rw [← Option.some_inj.1 hq, withSign_eq_zero_iff, abs_withSign, habs] at hmoderate
        exact hmoderate
  | _ => exact iff_of_false id (by rintro ⟨q, hq, -⟩; cases hq)

/-- What is asked of the text of a number. -/
structure Canonical (x : Binary64) (text : List Char) : Prop where
  /-- The text is read back as the number. -/
  reads : Numeral.read? text = some x
  /-- The text of an infinity is its name. -/
  infinite : ∀ negative, x = .infinite negative →
    text = (if negative then ['-', 'i', 'n', 'f'] else ['i', 'n', 'f'])
  /-- The text of a finite number is a decimal that rounds to it. -/
  rounds : ∀ q, x.toRat? = some q →
    ∃ w : DecimalText, w.chars = text ∧ Rounds w.sign.negative w.magnitude x
  /-- No decimal that is read back has fewer significant digits, or as many and is nearer. -/
  shortest : ∀ q, x.toRat? = some q → q ≠ 0 →
    ∀ w u : DecimalText, w.chars = text → Numeral.read? u.chars = some x →
      w.significantDigits.length ≤ u.significantDigits.length ∧
        (w.significantDigits.length = u.significantDigits.length →
          |q - w.value| ≤ |q - u.value|)
  /-- The text is positional for the zeros and the magnitudes that are near enough to one. -/
  positional_iff : (∃ w : DecimalText, w.chars = text ∧ w.Positional) ↔
    ∃ q, x.toRat? = some q ∧ (q = 0 ∨ (1 / 10 ^ 4 ≤ |q| ∧ |q| < 10 ^ 16))
  /-- The text of any other finite number is scientific. -/
  scientific : ∀ q, x.toRat? = some q → ¬(q = 0 ∨ (1 / 10 ^ 4 ≤ |q| ∧ |q| < 10 ^ 16)) →
    ∃ w : DecimalText, w.chars = text ∧ w.Scientific
  /-- A positional text has a point exactly if the number is no integer. -/
  point_iff : (∃ w : DecimalText, w.chars = text ∧ w.Positional) →
    ('.' ∈ text ↔ ¬∃ n : Int, x.toRat? = some (n : ℚ))
  /-- No text ends in a point and a zero. -/
  not_isSuffix : ¬['.', '0'] <:+ text

/-- A name is no decimal text in positional notation. -/
theorem not_positional_of_mem {text : List Char} (hletter : 'n' ∈ text) :
    ¬∃ w : DecimalText, w.chars = text ∧ w.Positional := by
  rintro ⟨w, rfl, hpositional⟩
  exact hpositional.not_mem_chars (.inr rfl) hletter

/-- The text of a number without digits. -/
theorem canonical_of_toRat?_eq_none {x : Binary64} (hnone : x.toRat? = none) :
    Canonical x (x.chars .lox) := by
  have hletter : 'n' ∈ x.chars .lox ∧ '.' ∉ x.chars .lox := by
    cases x with
    | nan => decide
    | infinite negative => cases negative <;> decide
    | finite negative rank => cases hnone
  have hno (q : ℚ) : x.toRat? ≠ some q := by
    rw [hnone]
    exact nofun
  refine ⟨read?_chars x, ?_, fun q hq => absurd hq (hno q), fun q hq => absurd hq (hno q),
    ?_, fun q hq => absurd hq (hno q), ?_, ?_⟩
  · rintro negative rfl
    cases negative <;> rfl
  · refine iff_of_false (not_positional_of_mem hletter.1) ?_
    rintro ⟨q, hq, -⟩
    exact hno q hq
  · exact fun hpositional => absurd hpositional (not_positional_of_mem hletter.1)
  · exact fun hsuffix => hletter.2 (hsuffix.subset List.mem_cons_self)

/-- The text of a finite number. -/
theorem canonical_finite (negative : Bool) (rank : Fin rankLimit) :
    Canonical (.finite negative rank) (chars .lox (.finite negative rank)) := by
  rcases exists_text negative rank with ⟨w, hchars, hsign, hwritten, hform⟩
  have hscientific (hletter : w.Scientific) :
      ¬∃ w : DecimalText, w.chars = chars .lox (.finite negative rank) ∧ w.Positional := by
    rintro ⟨other, hother, hpositional⟩
    exact hpositional.not_mem_chars (.inl rfl) (hother.trans hchars.symm ▸ hletter.mem_chars)
  refine ⟨read?_chars _, nofun, ?_, ?_, ?_, ?_, ?_, not_isSuffix_chars negative rank⟩
  · intro q hq
    refine ⟨w, hchars, ?_⟩
    rw [hsign]
    exact rounds_of_writtenAs hwritten
  · intro q hq hne
    have hvalue := Option.some_inj.1 hq
    have hrank : rank.val ≠ 0 := by
      intro hzero
      rw [hzero, exact_zero, (withSign_eq_zero_iff negative 0).2 rfl] at hvalue
      exact hne hvalue.symm
    intro other u hother hread
    rw [← hvalue, DecimalText.chars_injective (hother.trans hchars.symm)]
    exact significantDigits_le_of_writtenAs hrank hwritten hsign hread
  · rw [← moderate_iff_toRat?]
    rcases hform with ⟨hpositional, hmoderate, -, -⟩ | ⟨hletter, himmoderate⟩
    · exact iff_of_true ⟨w, hchars, hpositional⟩ hmoderate
    · exact iff_of_false (hscientific hletter) himmoderate
  · intro q hq hfar
    rcases hform with ⟨-, hmoderate, -, -⟩ | ⟨hletter, -⟩
    · rcases (moderate_iff_toRat? _).1 hmoderate with ⟨q', hq', hnear⟩
      rw [hq, Option.some_inj] at hq'
      exact absurd (hq' ▸ hnear) hfar
    · exact ⟨w, hchars, hletter⟩
  · intro hexists
    rcases hform with ⟨hpositional, -, hpart, -⟩ | ⟨hletter, -⟩
    · rw [← hchars, hpositional.point_mem_chars_iff, exists_toRat?_eq_iff,
        ← Decimal.exponent_shortest_nonneg_iff, ne_eq, hpart]
    · exact absurd hexists (hscientific hletter)

/-- The text of every number is canonical. -/
theorem canonical_chars (x : Binary64) : Canonical x (x.chars .lox) := by
  cases x with
  | finite negative rank => exact canonical_finite negative rank
  | _ => exact canonical_of_toRat?_eq_none rfl

/-! ## The text in a dump -/

/-- A text less a point and a zero at its end, if it ends in them. -/
def withoutPointZero (text : List Char) : List Char :=
  if ['.', '0'] <:+ text then text.take (text.length - 2) else text

/-- The text of a number is that of a dump without a point and a zero at its end. -/
theorem withoutPointZero_chars (x : Binary64) :
    withoutPointZero (x.chars .diagnostic) = x.chars .lox := by
  rw [withoutPointZero]
  rcases x.chars_diagnostic with hsame | hmore
  · -- Nothing is taken away, since no text of a number ends in a point and a zero.
    rw [hsame, if_neg x.canonical_chars.not_isSuffix]
  · rw [hmore, if_pos (List.suffix_append _ _), List.length_append]
    exact List.take_left

end Binary64

/-- The text of a number is that of a dump without a point and a zero at its end. -/
theorem Value.text_number_eq_dump (x : Binary64) :
    (number x).text.toList = Binary64.withoutPointZero ((number x).spell .dump).toList := by
  have hdump : ((number x).spell .dump).toList = x.chars .diagnostic := String.toList_ofList
  rw [hdump, x.withoutPointZero_chars, text_number, Binary64.text, String.toList_ofList]

/-- The text of every number is exact, shortest and canonical, and two numbers have the same
text exactly if they have the same bits or both are not-a-number. -/
theorem number_text_canonical :
    (∀ x, Binary64.Canonical x (Value.number x).text.toList) ∧
      ∀ bits bits' : UInt64,
        (Value.number (Binary64.ofBits bits)).text = (Value.number (Binary64.ofBits bits')).text ↔
          bits = bits' ∨ (Binary64.ofBits bits = .nan ∧ Binary64.ofBits bits' = .nan) := by
  have htext (x : Binary64) : (Value.number x).text.toList = x.chars .lox := by
    rw [Value.text_number, Binary64.text, String.toList_ofList]
  constructor
  · intro x
    rw [htext]
    exact x.canonical_chars
  · intro bits bits'
    rw [← String.toList_inj, htext, htext, Binary64.chars_injective.eq_iff]
    constructor
    · intro hsame
      by_cases hnan : Binary64.ofBits bits = .nan
      · exact .inr ⟨hnan, hsame ▸ hnan⟩
      · left
        have hbits := Binary64.toBits_ofBits hnan
        rw [hsame] at hnan
        rw [← hbits, hsame, Binary64.toBits_ofBits hnan]
    · rintro (rfl | ⟨hnan, hnan'⟩)
      · rfl
      · rw [hnan, hnan']

example : (Value.number (.ofDecimal false 1 16)).text.toList = ['1', 'e', '+', '1', '6'] := by
  decide +kernel

end Lox
