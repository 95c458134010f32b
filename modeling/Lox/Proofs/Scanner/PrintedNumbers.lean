import Lox.Proofs.Decimal.Canonical
import Lox.Proofs.Expr.RoundTrip

/-!
# Printed numbers are scanned

The text of a number is not always a number of the language: that has no sign and no power of ten.
A scan of the text reads a sign as an operator, and stops at the power of ten, whose letter is a
name and whose sign is an operator again.  So a number is scanned back exactly if it has no sign
and is written in positional notation, and up to its sign if it is written so.

Main results:

- Theorem {lit}`scansAs_of_reads`: what is read of a text is all that a scan of it yields.
- Theorem {lit}`scansAs_of_moderate`: what a text in positional notation is scanned as.
- Theorem {lit}`exists_scansAs_scientific`: what a text in scientific notation is scanned as.
- Theorem {lit}`number_text_scans_back`: the text of every number.
-/

namespace Lox
namespace Scanner

open Binary64 (ofBits signWeight signChars)
open Lexeme (Digits Shape)
open Numeral (pointed)

/-! ## Scans of one line -/

/-- A scan of the text yields just the given tokens and the end of the text, on the first line, and
reports nothing. -/
def ScansAs (text : String) (tokens : List Token) : Prop :=
  ∃ last, scanTokens (ofSource text) =
      .ok (tokens ++ [Token.mk .endOfText "" .nil 1]).toArray last ∧
    last.faults = #[] ∧ ∀ r : Reporter, (r.scan text).2 = r

/-- A text is scanned in one way. -/
theorem ScansAs.unique {text : String} {tokens tokens' : List Token}
    (hscans : ScansAs text tokens) (hscans' : ScansAs text tokens') : tokens = tokens' := by
  rcases hscans with ⟨last, hscan, -⟩
  rcases hscans' with ⟨last', hscan', -⟩
  have hsame := hscan.symm.trans hscan'
  rw [EStateM.Result.ok.injEq] at hsame
  exact List.append_cancel_right (congrArg Array.toList hsame.1)

/-- What is read of a text in front of nothing is all that a scan of it yields. -/
theorem scansAs_of_reads {text : List Char} {tokens : List Token}
    (hreads : Piece.Reads text [] tokens) : ScansAs (String.ofList text) tokens := by
  have htokens := hreads.tokens_eq
  have hfaults := hreads.faults_eq
  rw [List.append_nil, Piece.split_nil] at htokens hfaults
  have hyields : Yields text tokens :=
    yields_iff.2 ⟨by simpa [Piece.tokens] using htokens, hfaults⟩
  rcases hyields with ⟨last, hscan, hnone⟩
  rw [endToken, List.count_eq_zero.2 hreads.one_line] at hscan
  refine ⟨last, hscan, hnone, fun r => ?_⟩
  rw [r.scan_eq_reportFaults, Lox.scan, hscan]
  simp [hnone, Reporter.reportFaults]

/-! ## Parts of number text -/

/-- A number of the language is read as a number. -/
theorem exists_reads_number {text rest : List Char} (hnumber : Shape.number.Accepts text)
    (hends : ¬Shape.number.GoesOn text rest) :
    ∃ y, Piece.Reads text rest [⟨.number, String.ofList text, .number y, 1⟩] := by
  rcases Numeral.exists_read?_of_number hnumber with ⟨y, hread⟩
  exact ⟨y, Expr.reads_number hnumber hread hends⟩

/-- The operators that are signs of a power of ten. -/
def powerSigns : List Token :=
  [⟨.plus, "+", .nil, 1⟩, ⟨.minus, "-", .nil, 1⟩]

/-- The sign of a power of ten is read as an operator. -/
theorem exists_reads_powerSign (exponent : Int) :
    ∃ sign ∈ powerSigns, sign.lexeme.toList = [if exponent < 0 then '-' else '+'] ∧
      ∀ rest, Piece.Reads sign.lexeme.toList rest [sign] := by
  by_cases hnegative : exponent < 0
  · rw [if_pos hnegative]
    exact ⟨⟨.minus, "-", .nil, 1⟩, by simp [powerSigns], rfl,
      Piece.reads_mark (by decide) (by decide) (by decide)⟩
  · rw [if_neg hnegative]
    exact ⟨⟨.plus, "+", .nil, 1⟩, by simp [powerSigns], rfl,
      Piece.reads_mark (by decide) (by decide) (by decide)⟩

/-- A power of ten is read as an operator and a number. -/
theorem exists_reads_exponentText (exponent : Int) :
    ∃ sign ∈ powerSigns, ∃ power z,
      Decimal.exponentText exponent = sign.lexeme.toList ++ power ∧
      Piece.Reads (Decimal.exponentText exponent) []
        [sign, ⟨.number, String.ofList power, .number z, 1⟩] := by
  have hpower : Digits ((Nat.toDigits 10 exponent.natAbs).leftpad 2 '0') :=
    ⟨by simp [List.leftpad], fun c => Decimal.digit_of_mem_leftpad⟩
  rcases exists_reads_number (.inl hpower) (Lexeme.not_goesOn_nil _ _) with ⟨z, hreads⟩
  rcases exists_reads_powerSign exponent with ⟨sign, hsign, hlexeme, hreadsSign⟩
  have htext : Decimal.exponentText exponent =
      sign.lexeme.toList ++ (Nat.toDigits 10 exponent.natAbs).leftpad 2 '0' := by
    rw [hlexeme]
    rfl
  refine ⟨sign, hsign, _, z, htext, ?_⟩
  rw [htext]
  exact (hreadsSign _).append hreads

/-- The letter of a power of ten is read as a name. -/
theorem reads_letter (exponent : Int) :
    Piece.Reads ['e'] (Decimal.exponentText exponent ++ []) [⟨.identifier, "e", .nil, 1⟩] := by
  have hends : ¬Shape.word.GoesOn ['e'] (Decimal.exponentText exponent ++ []) := by
    by_cases hnegative : exponent < 0 <;>
      simp [Shape.GoesOn, Decimal.exponentText, hnegative] <;> decide
  exact Expr.reads_name (Lexeme.accepts_word rfl rfl) rfl (by decide) hends

/-! ## Number text -/

/-- The text of a number is its sign and the text of its magnitude. -/
theorem text_number_eq (x : Binary64) :
    (Value.number x).text =
      String.ofList (signChars x.isNegative ++ x.magnitude.chars .lox) := by
  rw [← x.chars_eq_signChars_append]
  rfl

/-- The text of a number is scanned as it is read behind its sign. -/
theorem scansAs_of_reads_magnitude {x : Binary64} {tokens : List Token}
    (hreads : Piece.Reads (x.magnitude.chars .lox) [] tokens) :
    ScansAs (Value.number x).text (Expr.signTokens x.isNegative ++ tokens) := by
  rw [text_number_eq]
  exact scansAs_of_reads (Expr.reads_sign x.isNegative hreads)

/-- The name of not-a-number is scanned as a name. -/
theorem scansAs_nan : ScansAs (Value.number .nan).text [⟨.identifier, "nan", .nil, 1⟩] := by
  have hword : Shape.word.Accepts ['n', 'a', 'n'] := Lexeme.accepts_word rfl rfl
  exact scansAs_of_reads (Expr.reads_name hword rfl (by decide) (Lexeme.not_goesOn_nil _ _))

/-- The name of an infinity is scanned as a name behind its sign. -/
theorem scansAs_infinite (negative : Bool) :
    ScansAs (Value.number (.infinite negative)).text
      (Expr.signTokens negative ++ [⟨.identifier, "inf", .nil, 1⟩]) := by
  have hword : Shape.word.Accepts ['i', 'n', 'f'] := Lexeme.accepts_word rfl rfl
  have hreads := Expr.reads_name hword rfl (by decide) (Lexeme.not_goesOn_nil _ _)
  exact @scansAs_of_reads_magnitude (.infinite negative) _ hreads

/-- A moderate number is scanned as its magnitude behind its sign. -/
theorem scansAs_of_moderate {x : Binary64} (hmoderate : x.Moderate) :
    ScansAs (Value.number x).text (Expr.signTokens x.isNegative ++
      [⟨.number, x.magnitude.text .lox, .number x.magnitude, 1⟩]) :=
  scansAs_of_reads_magnitude (Expr.reads_magnitude hmoderate (.inl rfl))

/-- A finite number that is not moderate is scanned as the parts of its text in scientific
notation. -/
theorem exists_scansAs_scientific {x : Binary64} {q : ℚ} (hq : x.toRat? = some q)
    (hfar : ¬x.Moderate) :
    ∃ significand power y z, ∃ sign ∈ powerSigns,
      (Value.number x).text =
        (if x.isNegative then "-" else "") ++ significand ++ "e" ++ sign.lexeme ++ power ∧
      ScansAs (Value.number x).text (Expr.signTokens x.isNegative ++
        [⟨.number, significand, .number y, 1⟩, ⟨.identifier, "e", .nil, 1⟩, sign,
          ⟨.number, power, .number z, 1⟩]) := by
  cases x with
  | finite negative rank =>
      have hbounds := Decimal.point_bounds rank.isLt
      rcases Decimal.exists_pointed_of_scientific (Decimal.digits_shortest rank) (by omega)
        (by omega) with ⟨whole, part, hscientific, hwhole, hpart, -⟩
      rcases exists_reads_exponentText ((Decimal.shortest rank).point - 1) with
        ⟨sign, hsign, power, z, hpower, hreadsPower⟩
      have hreadsLetter := reads_letter ((Decimal.shortest rank).point - 1)
      have hends : ¬Shape.number.GoesOn (pointed whole part)
          (['e'] ++ Decimal.exponentText ((Decimal.shortest rank).point - 1) ++ []) := by
        simp [Shape.GoesOn, Lexeme.BeginsFraction]
        decide
      rcases exists_reads_number (Numeral.accepts_pointed hwhole hpart) hends with
        ⟨y, hreadsSignificand⟩
      have hchars : Binary64.chars .lox (.finite false rank) =
          pointed whole part ++ (['e'] ++ (sign.lexeme.toList ++ power)) := by
        rw [Binary64.chars, Decimal.chars,
          if_neg (mt (Decimal.isPositional_shortest_iff negative rank).1 hfar), hscientific,
          hpower]
        rfl
      refine ⟨String.ofList (pointed whole part), String.ofList power, y, z, sign, hsign, ?_, ?_⟩
      · rw [text_number_eq, Binary64.magnitude, hchars, ← String.toList_inj]
        cases negative <;> simp [Binary64.isNegative, signChars]
      · apply scansAs_of_reads_magnitude
        rw [Binary64.magnitude, hchars, ← hpower]
        exact hreadsSignificand.append (hreadsLetter.append hreadsPower)
  | _ => cases hq

/-- Only a moderate number without a sign is scanned as one number. -/
theorem moderate_of_scansAs {x y : Binary64} {lexeme : String}
    (hscans : ScansAs (Value.number x).text [⟨.number, lexeme, .number y, 1⟩]) :
    x.Moderate ∧ x.isNegative = false := by
  by_cases hmoderate : x.Moderate
  · have htokens := hscans.unique (scansAs_of_moderate hmoderate)
    cases hnegative : x.isNegative with
    | false => exact ⟨hmoderate, rfl⟩
    | true => simp [hnegative, Expr.signTokens] at htokens
  · cases x with
    | nan =>
        have htokens := hscans.unique scansAs_nan
        simp at htokens
    | infinite negative =>
        have htokens := hscans.unique (scansAs_infinite negative)
        cases negative <;> simp [Expr.signTokens] at htokens
    | finite negative rank =>
        rcases exists_scansAs_scientific rfl hmoderate with ⟨_, _, _, _, sign, -, -, hscientific⟩
        have hlength := congrArg List.length (hscans.unique hscientific)
        simp only [List.length_append, List.length_cons] at hlength
        omega

/-! ## Every number -/

/-- The value is zero, or so near to one that its notation is positional. -/
def Near (q : ℚ) : Prop :=
  q = 0 ∨ (1 / 10 ^ 4 ≤ q ∧ q < 10 ^ 16)

/-- The moderate numbers are those whose magnitudes are zero or near enough to one. -/
theorem moderate_iff_near {x : Binary64} {q : ℚ} (hq : x.toRat? = some q) :
    x.Moderate ↔ Near |q| := by
  rw [Binary64.moderate_iff_toRat?, Near, abs_eq_zero]
  simp [hq]

/-- The number of the given bits is scanned back as far as its text allows. -/
structure ScansBack (bits : UInt64) : Prop where
  /-- It is scanned back bit by bit exactly if it has no sign and is near enough to one. -/
  number_iff : (∃ lexeme y,
      ScansAs (Value.number (ofBits bits)).text [⟨.number, lexeme, .number y, 1⟩] ∧
        y.toBits = bits) ↔
    bits.toNat < signWeight ∧ ∃ q, (ofBits bits).toRat? = some q ∧ Near q
  /-- With a sign its magnitude is scanned back, and the sign is an operator that restores it. -/
  negative : signWeight ≤ bits.toNat → ∀ q, (ofBits bits).toRat? = some q → Near |q| →
    ∃ lexeme y, y.isNegative = false ∧ y.toRat? = some |q| ∧
      ScansAs (Value.number (ofBits bits)).text
        [⟨.minus, "-", .nil, 1⟩, ⟨.number, lexeme, .number y, 1⟩] ∧
      ∃ z, (Expr.unary ⟨.minus, "-", .nil, 1⟩ (.literal (.number y))).evaluate =
        .ok (.number z) ∧ z.toBits = bits
  /-- Farther from one its text comes apart at the power of ten. -/
  scientific : ∀ q, (ofBits bits).toRat? = some q → ¬Near |q| →
    ∃ significand power y z, ∃ sign ∈ powerSigns,
      (Value.number (ofBits bits)).text =
        (if signWeight ≤ bits.toNat then "-" else "") ++ significand ++ "e" ++ sign.lexeme ++
          power ∧
      ScansAs (Value.number (ofBits bits)).text
        (Expr.signTokens (decide (signWeight ≤ bits.toNat)) ++
          [⟨.number, significand, .number y, 1⟩, ⟨.identifier, "e", .nil, 1⟩, sign,
            ⟨.number, power, .number z, 1⟩])
  /-- The name of an infinity is a name, behind its sign. -/
  infinite : ∀ negative, ofBits bits = .infinite negative →
    ScansAs (Value.number (ofBits bits)).text
      (Expr.signTokens negative ++ [⟨.identifier, "inf", .nil, 1⟩])
  /-- The name of not-a-number is a name. -/
  nan : ofBits bits = .nan →
    ScansAs (Value.number (ofBits bits)).text [⟨.identifier, "nan", .nil, 1⟩]

/-- The text of a number is scanned back as the number exactly if it has no sign and is zero or
from a ten thousandth to ten to the power of sixteen.  With a sign, the magnitude is scanned back
behind a minus sign.  Every other text comes apart at its power of ten or is a name, and no text
of a number is reported. -/
theorem number_text_scans_back (bits : UInt64) : ScansBack bits where
  number_iff := by
    constructor
    · rintro ⟨lexeme, y, hscans, -⟩
      rcases moderate_of_scansAs hscans with ⟨hmoderate, hunsigned⟩
      rcases (Binary64.moderate_iff_toRat? _).1 hmoderate with ⟨q, hq, -⟩
      rw [moderate_iff_near hq, Binary64.abs_eq_self_of_toRat? hq hunsigned] at hmoderate
      rw [Binary64.isNegative_ofBits_eq_false_iff (Binary64.ne_nan_of_toRat? hq)] at hunsigned
      exact ⟨hunsigned, q, hq, hmoderate⟩
    · rintro ⟨hclear, q, hq, hnear⟩
      have hnumber := Binary64.ne_nan_of_toRat? hq
      have hunsigned := (Binary64.isNegative_ofBits_eq_false_iff hnumber).2 hclear
      rw [← Binary64.abs_eq_self_of_toRat? hq hunsigned, ← moderate_iff_near hq] at hnear
      have hscans := scansAs_of_moderate hnear
      rw [hunsigned, Binary64.magnitude_eq_self hunsigned] at hscans
      exact ⟨_, _, hscans, Binary64.toBits_ofBits hnumber⟩
  negative := by
    intro hset q hq hnear
    have hnumber := Binary64.ne_nan_of_toRat? hq
    have hsigned : (ofBits bits).isNegative = true := by
      rw [Binary64.isNegative_ofBits hnumber, decide_eq_true_iff]
      exact hset
    have hscans := scansAs_of_moderate ((moderate_iff_near hq).2 hnear)
    rw [hsigned] at hscans
    refine ⟨_, _, Binary64.isNegative_magnitude _, Binary64.toRat?_magnitude hq, hscans,
      ofBits bits, ?_, Binary64.toBits_ofBits hnumber⟩
    rw [Expr.evaluate_unary_of_ok (Expr.evaluate_literal _)]
    change Except.ok (Value.number (-(ofBits bits).magnitude)) = _
    rw [Binary64.neg_magnitude hsigned]
  scientific := by
    intro q hq hfar
    have hsign := Binary64.isNegative_ofBits (Binary64.ne_nan_of_toRat? hq)
    rw [← moderate_iff_near hq] at hfar
    have hscans := exists_scansAs_scientific hq hfar
    simp only [hsign, decide_eq_true_iff] at hscans
    exact hscans
  infinite := by
    intro negative hinfinite
    rw [hinfinite]
    exact scansAs_infinite negative
  nan := by
    intro hnan
    rw [hnan]
    exact scansAs_nan

end Scanner
end Lox
