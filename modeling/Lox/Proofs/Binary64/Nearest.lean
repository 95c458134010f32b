import Lox.Binary64.Rounding
import Lox.Proofs.Binary64.Units

/-!
# The nearest rank

A quotient rounds to a rank if it lies between the midpoints to the neighbouring magnitudes,
and on a midpoint only if the rank is even.  This says nothing about how the rank is found,
and it leaves no choice: a greater quotient rounds to no smaller rank.  What is known about
rounding follows from it: it depends on the quotient alone, it keeps the order, and it leaves
every magnitude as it is.

Main results:

- Theorem {lit}`nearest_nearestRank`: rounding finds the nearest rank.
- Theorem {lit}`Nearest.le_of_le`: a greater quotient rounds to no smaller rank.
- Theorem {lit}`nearestRank_congr`: equal quotients round to the same rank.
- Theorem {lit}`nearestRank_units`: a magnitude rounds to its own rank.
-/

namespace Lox
namespace Binary64

/-! ## Nearest ranks -/

/-- The magnitude of the rank is the nearest to {lit}`num / den` units: the quotient lies
between the midpoints to its neighbours, and on a midpoint only if the rank is even. -/
structure Nearest (rank num den : Nat) : Prop where
  above : 2 * num ≤ (units rank + units (rank + 1)) * den
  even_of_above : 2 * num = (units rank + units (rank + 1)) * den → rank % 2 = 0
  below : ∀ lower, rank = lower + 1 → (units lower + units rank) * den ≤ 2 * num
  even_of_below : ∀ lower, rank = lower + 1 →
    (units lower + units rank) * den = 2 * num → rank % 2 = 0

/-- A greater quotient rounds to no smaller rank. -/
theorem Nearest.le_of_le {rank num den rank' num' den' : Nat} (hnear : Nearest rank num den)
    (hnear' : Nearest rank' num' den') (hden : 0 < den) (hden' : 0 < den')
    (hle : num * den' ≤ num' * den) : rank ≤ rank' := by
  by_contra hlt
  rw [Nat.not_le] at hlt
  rcases Nat.exists_eq_succ_of_ne_zero (Nat.ne_zero_of_lt hlt) with ⟨lower, hlower⟩
  have hrank : rank' ≤ lower := by omega
  have hsum : units rank' + units (rank' + 1) ≤ units lower + units rank :=
    Nat.add_le_add (units_strictMono.monotone hrank) (units_strictMono.monotone hlt)
  -- The midpoint below the one rank is no greater than the midpoint above the other one.
  have hbelow := Nat.mul_le_mul_right den' (hnear.below lower hlower)
  have habove := Nat.mul_le_mul_right den hnear'.above
  have hmiddle := Nat.mul_le_mul_right (den * den') hsum
  have hpos : 0 < den * den' := Nat.mul_pos hden hden'
  have hfirst : (units lower + units rank) * den * den' =
      (units lower + units rank) * (den * den') := by ring
  have hsecond : (units rank' + units (rank' + 1)) * den' * den =
      (units rank' + units (rank' + 1)) * (den * den') := by ring
  have hnum : 2 * num * den' = 2 * (num * den') := by ring
  have hnum' : 2 * num' * den = 2 * (num' * den) := by ring
  -- So they are one midpoint, both quotients lie on it, and both ranks would be even.
  have hmid : units rank' + units (rank' + 1) = units lower + units rank :=
    Nat.eq_of_mul_eq_mul_right hpos (by omega)
  have htie : (units lower + units rank) * den = 2 * num :=
    Nat.eq_of_mul_eq_mul_right hden' (by omega)
  have htie' : 2 * num' = (units rank' + units (rank' + 1)) * den' :=
    Nat.eq_of_mul_eq_mul_right hden (by omega)
  have heven := hnear.even_of_below lower hlower htie
  have heven' := hnear'.even_of_above htie'
  have hnext : rank = rank' + 1 := by
    apply le_antisymm _ hlt
    by_contra hgap
    have hstrict := units_strictMono (Nat.lt_of_not_le hgap)
    have hle := units_strictMono.monotone hrank
    omega
  omega

/-! ## Rounding a quotient -/

/-- Rounding misses a quotient by half of the divisor at most, and by just half of it only at
an even number. -/
theorem roundDiv_bounds {num den : Nat} (hden : 0 < den) :
    (2 * num ≤ (2 * roundDiv num den + 1) * den ∧
        (2 * num = (2 * roundDiv num den + 1) * den → roundDiv num den % 2 = 0)) ∧
      (2 * roundDiv num den * den ≤ 2 * num + den ∧
        (2 * roundDiv num den * den = 2 * num + den → roundDiv num den % 2 = 0)) := by
  have hsplit := Nat.div_add_mod num den
  have hmod := Nat.mod_lt num hden
  unfold roundDiv
  dsimp only
  generalize num / den = quotient at *
  generalize num % den = remainder at *
  subst hsplit
  have hparity := Nat.mod_two_eq_zero_or_one quotient
  split
  · have hup : (2 * quotient + 1) * den = 2 * (den * quotient) + den := by ring
    have hdown : 2 * quotient * den = 2 * (den * quotient) := by ring
    omega
  · split
    · have hup : (2 * (quotient + 1) + 1) * den = 2 * (den * quotient) + 3 * den := by ring
      have hdown : 2 * (quotient + 1) * den = 2 * (den * quotient) + 2 * den := by ring
      omega
    · rcases hparity with heven | hodd
      · have hup : (2 * quotient + 1) * den = 2 * (den * quotient) + den := by ring
        have hdown : 2 * quotient * den = 2 * (den * quotient) := by ring
        simp only [heven, Nat.add_zero, implies_true, and_true]
        omega
      · have hup : (2 * (quotient + 1) + 1) * den = 2 * (den * quotient) + 3 * den := by ring
        have hdown : 2 * (quotient + 1) * den = 2 * (den * quotient) + 2 * den := by ring
        simp only [hodd]
        omega

/-- The shift that scales a quotient down to a significand. -/
def shiftOf (num den : Nat) : Nat :=
  (num / den).log2 - 52

/-- The nearest rank counts the binades that are passed and the rounded steps in the last one. -/
theorem nearestRank_eq (num den : Nat) :
    nearestRank num den =
      shiftOf num den * binadeSize + roundDiv num (den * 2 ^ shiftOf num den) := by
  rw [nearestRank, shiftOf, Nat.shiftLeft_eq]

/-- A quotient that is scaled down has 53 binary digits. -/
theorem quotient_shiftOf (num den : Nat) :
    num / (den * 2 ^ shiftOf num den) < 2 * binadeSize ∧
      (shiftOf num den = 0 ∨ binadeSize ≤ num / (den * 2 ^ shiftOf num den)) := by
  rw [← Nat.div_div_eq_div_mul]
  unfold shiftOf
  generalize num / den = quotient
  by_cases hzero : quotient = 0
  · subst hzero
    simp
  have hlower := Nat.log2_self_le hzero
  have hupper := @Nat.lt_log2_self quotient
  by_cases hsmall : quotient.log2 ≤ 52
  · have hshift : quotient.log2 - 52 = 0 := by omega
    have hpow : 2 ^ (quotient.log2 + 1) ≤ 2 ^ 53 := Nat.pow_le_pow_right (by decide) (by omega)
    rw [hshift]
    refine ⟨?_, Or.inl rfl⟩
    simp only [pow_zero, Nat.div_one, binadeSize]
    omega
  · obtain ⟨shift, hshift⟩ : ∃ shift, quotient.log2 = 52 + shift :=
      ⟨quotient.log2 - 52, by omega⟩
    have hsame : 52 + shift - 52 = shift := by omega
    have hbinade : binadeSize = 2 ^ 52 := by decide
    rw [hshift] at hlower hupper
    rw [hshift, hsame, hbinade]
    constructor
    · apply Nat.div_lt_of_lt_mul
      calc quotient < 2 ^ (52 + shift + 1) := hupper
        _ = 2 ^ shift * (2 * 2 ^ 52) := by ring
    · right
      rw [Nat.le_div_iff_mul_le (Nat.two_pow_pos shift), ← pow_add]
      exact hlower

/-- Rounding a quotient that is scaled down gives a significand. -/
theorem significand_nearestRank (num den : Nat) :
    Significand (shiftOf num den) (roundDiv num (den * 2 ^ shiftOf num den)) := by
  rcases quotient_shiftOf num den with ⟨hlt, hfull⟩
  rcases roundDiv_cases num (den * 2 ^ shiftOf num den) with ⟨hround, -⟩ | ⟨hround, -⟩
  · rw [hround]
    exact ⟨hlt.le, hfull⟩
  · rw [hround]
    exact ⟨hlt, hfull.imp_right fun hle => Nat.le_succ_of_le hle⟩

/-- The midpoint above a significand, scaled up. -/
theorem midpoint_above_ge {shift significand : Nat} (hsplit : Significand shift significand)
    (den : Nat) :
    (2 * significand + 1) * (den * 2 ^ shift) ≤
      (units (shift * binadeSize + significand) +
        units (shift * binadeSize + significand + 1)) * den := by
  have hvalue := units_of_significand hsplit
  have hnext := (units_succ_of_significand hsplit).1
  calc (2 * significand + 1) * (den * 2 ^ shift)
      = (significand * 2 ^ shift + (significand + 1) * 2 ^ shift) * den := by ring
    _ ≤ _ := Nat.mul_le_mul_right den (Nat.add_le_add hvalue.ge hnext)

/-- The midpoint below a significand, scaled up, unless a binade begins there: then a quotient
of the binade lies beyond the midpoint. -/
theorem midpoint_below {shift significand num den lower : Nat}
    (hsplit : Significand shift significand) (hden : 0 < den)
    (hfull : shift = 0 ∨ binadeSize ≤ num / (den * 2 ^ shift))
    (hlower : shift * binadeSize + significand = lower + 1) :
    (units lower + units (shift * binadeSize + significand)) * den + den * 2 ^ shift =
        2 * significand * (den * 2 ^ shift) ∨
      (units lower + units (shift * binadeSize + significand)) * den < 2 * num := by
  have hvalue := units_of_significand hsplit
  rcases units_pred_of_significand hsplit hlower with hstep | ⟨hshift, hfirst⟩
  · left
    rw [hvalue]
    calc (units lower + significand * 2 ^ shift) * den + den * 2 ^ shift
        = (units lower + 2 ^ shift) * den + significand * 2 ^ shift * den := by ring
      _ = 2 * significand * (den * 2 ^ shift) := by rw [hstep]; ring
  · right
    have hstrict : units lower < units (shift * binadeSize + significand) :=
      units_strictMono (by omega)
    have hbinade := Nat.mul_le_mul_right (den * 2 ^ shift) (hfull.resolve_left hshift)
    calc (units lower + units (shift * binadeSize + significand)) * den
        < (units (shift * binadeSize + significand) +
            units (shift * binadeSize + significand)) * den :=
          Nat.mul_lt_mul_of_pos_right (Nat.add_lt_add_right hstrict _) hden
      _ = 2 * (binadeSize * (den * 2 ^ shift)) := by rw [hvalue, hfirst]; ring
      _ ≤ 2 * num := Nat.mul_le_mul_left 2 (hbinade.trans (Nat.div_mul_le_self num _))

/-- Rounding finds the nearest rank. -/
theorem nearest_nearestRank (num : Nat) {den : Nat} (hden : 0 < den) :
    Nearest (nearestRank num den) num den := by
  have hsplit := significand_nearestRank num den
  have hfull := (quotient_shiftOf num den).2
  have hpos : 0 < den * 2 ^ shiftOf num den := Nat.mul_pos hden (Nat.two_pow_pos _)
  rw [nearestRank_eq]
  rcases @roundDiv_bounds num _ hpos with ⟨⟨habove, htop⟩, hbelow, hbottom⟩
  generalize shiftOf num den = shift at *
  generalize roundDiv num (den * 2 ^ shift) = significand at *
  have hparity : (shift * binadeSize + significand) % 2 = significand % 2 := by
    simp only [binadeSize]
    omega
  have hupper := midpoint_above_ge hsplit den
  refine ⟨habove.trans hupper, ?_, ?_, ?_⟩
  · intro htie
    rw [hparity]
    exact htop (by omega)
  · intro lower hrank
    rcases midpoint_below hsplit hden hfull hrank with hmiddle | hstrict
    · omega
    · exact hstrict.le
  · intro lower hrank htie
    rcases midpoint_below hsplit hden hfull hrank with hmiddle | hstrict
    · rw [hparity]
      exact hbottom (by omega)
    · omega

/-! ## Laws of rounding -/

/-- A greater quotient rounds to no smaller rank. -/
theorem nearestRank_mono {num den num' den' : Nat} (hden : 0 < den) (hden' : 0 < den')
    (hle : num * den' ≤ num' * den) : nearestRank num den ≤ nearestRank num' den' :=
  (nearest_nearestRank num hden).le_of_le (nearest_nearestRank num' hden') hden hden' hle

/-- A nearest rank is the one that rounding finds. -/
theorem Nearest.eq_nearestRank {rank num den : Nat} (hnear : Nearest rank num den)
    (hden : 0 < den) : rank = nearestRank num den := by
  have hfound := nearest_nearestRank num hden
  exact le_antisymm (hnear.le_of_le hfound hden hden le_rfl)
    (hfound.le_of_le hnear hden hden le_rfl)

/-- Equal quotients round to the same rank. -/
theorem nearestRank_congr {num den num' den' : Nat} (hden : 0 < den) (hden' : 0 < den')
    (heq : num * den' = num' * den) : nearestRank num den = nearestRank num' den' :=
  le_antisymm (nearestRank_mono hden hden' heq.le) (nearestRank_mono hden' hden heq.ge)

/-- A magnitude rounds to its own rank. -/
theorem nearestRank_units (rank : Nat) {den : Nat} (hden : 0 < den) :
    nearestRank (units rank * den) den = rank := by
  symm
  apply Nearest.eq_nearestRank _ hden
  have habove := Nat.mul_lt_mul_of_pos_right (units_strictMono (Nat.lt_add_one rank)) hden
  refine ⟨?_, ?_, ?_, ?_⟩
  · rw [Nat.add_mul]
    omega
  · rw [Nat.add_mul]
    omega
  all_goals
    intro lower hlower
    have hbelow := Nat.mul_lt_mul_of_pos_right
      (units_strictMono (show lower < rank by omega)) hden
    rw [Nat.add_mul]
    omega

end Binary64
end Lox
