import Lox.Decimal.Shortest
import Lox.Proofs.Binary64.Nearest
import Mathlib.Data.List.TakeWhile

/-!
# Shortest decimals are read back

The number nearest to the shortest decimal of a magnitude is that magnitude: the search takes
no multiple that is not read back, and the digits that are trimmed are zeros.

Main results:

- Theorem {lit}`ofDecimal_mul_pow`: zeros behind the digits change nothing but the power of
  ten.
- Theorem {lit}`readsBack_coarsest`: what the search takes is read back.
- Theorem {lit}`ofDecimal_shortest`: the shortest decimal of a number is read back as it.
-/

namespace Lox

/-! ## Decimals as quotients -/

namespace Binary64

/-- Equal ratios round to one number. -/
theorem ofRatio_congr (negative : Bool) {num den num' den' : Nat} (hden : 0 < den)
    (hden' : 0 < den') (heq : num * den' = num' * den) :
    ofRatio negative num den = ofRatio negative num' den' := by
  simp only [ofRatio, nearestRank_congr hden hden' heq]

/-- A ratio whose nearest rank is within the limit rounds to the number of this rank. -/
theorem ofRatio_eq_finite (negative : Bool) {num den : Nat} {rank : Fin rankLimit}
    (hnearest : nearestRank num den = rank) :
    ofRatio negative num den = .finite negative rank := by
  simp [ofRatio, hnearest]

/-- A ratio that rounds to a finite number has its rank as the nearest one. -/
theorem nearestRank_of_ofRatio_eq_finite {negative : Bool} {num den : Nat}
    {rank : Fin rankLimit} (heq : ofRatio negative num den = .finite negative rank) :
    nearestRank num den = rank := by
  unfold ofRatio at heq
  dsimp only at heq
  generalize nearestRank num den = found at *
  split at heq
  · cases heq
    rfl
  · cases heq

/-- Zeros behind the digits change nothing but the power of ten. -/
theorem ofDecimal_mul_pow (negative : Bool) (significand count : Nat) (exponent : Int) :
    ofDecimal negative (significand * 10 ^ count) exponent =
      ofDecimal negative significand (exponent + count) := by
  have hpos (power : Nat) : 0 < Nat.pow 10 power := Nat.pow_pos (by decide)
  apply ofRatio_congr negative (hpos _) (hpos _)
  have hpowers : count + exponent.toNat + (-(exponent + count)).toNat =
      (exponent + count).toNat + (-exponent).toNat := by omega
  simp only [Nat.pow_eq]
  calc significand * 10 ^ count * 10 ^ exponent.toNat * unitsPerOne *
        10 ^ (-(exponent + count)).toNat
      = significand * 10 ^ (count + exponent.toNat + (-(exponent + count)).toNat) *
          unitsPerOne := by ring
    _ = significand * 10 ^ (exponent + count).toNat * unitsPerOne *
          10 ^ (-exponent).toNat := by rw [hpowers]; ring

end Binary64

namespace Decimal

open Binary64 (nearestRank units unitsPerOne)

theorem stepsPerUnit_pos : 0 < stepsPerUnit := by
  decide +kernel

/-- The steps of {lit}`10 ^ -1074` in the number one. -/
theorem unitsPerOne_mul_stepsPerUnit : unitsPerOne * stepsPerUnit = Nat.pow 10 1074 := by
  decide +kernel

/-- A decimal on the grid of a power of ten is a count of steps. -/
theorem ofDecimal_eq_ofRatio (negative : Bool) (multiple power : Nat) :
    Binary64.ofDecimal negative multiple (power - 1074) =
      Binary64.ofRatio negative (multiple * Nat.pow 10 power) stepsPerUnit := by
  apply Binary64.ofRatio_congr negative (Nat.pow_pos (by decide)) stepsPerUnit_pos
  have hone := unitsPerOne_mul_stepsPerUnit
  have hpowers : ((power : Int) - 1074).toNat + 1074 =
      power + (-((power : Int) - 1074)).toNat := by omega
  generalize 1074 = depth at hone hpowers
  generalize stepsPerUnit = steps at hone ⊢
  simp only [Nat.pow_eq] at hone ⊢
  calc multiple * 10 ^ ((power : Int) - 1074).toNat * unitsPerOne * steps
      = multiple * 10 ^ (((power : Int) - 1074).toNat + depth) := by
        rw [Nat.mul_assoc, hone, pow_add, Nat.mul_assoc]
    _ = multiple * 10 ^ power * 10 ^ (-((power : Int) - 1074)).toNat := by
        rw [hpowers, pow_add, Nat.mul_assoc]

/-! ## The search -/

theorem readsBack_iff (rank steps : Nat) :
    readsBack rank steps = true ↔ nearestRank steps stepsPerUnit = rank := by
  simp [readsBack]

/-- A neighbour that is found on a grid is read back. -/
theorem readsBack_of_neighbour? {rank steps grid multiple : Nat}
    (hfound : neighbour? rank steps grid = some multiple) :
    readsBack rank (multiple * grid) = true := by
  have hnearer : nearerMultiple steps grid (steps / grid) = steps / grid ∨
      nearerMultiple steps grid (steps / grid) = steps / grid + 1 := by
    unfold nearerMultiple
    dsimp only
    split
    · exact .inl rfl
    · split <;> omega
  unfold neighbour? at hfound
  dsimp only at hfound
  split at hfound
  · rename_i hbelow
    split at hfound
    · rename_i habove
      cases hfound
      rcases hnearer with heq | heq
      · rw [heq]
        exact hbelow
      · rw [heq]
        exact habove
    · cases hfound
      exact hbelow
  · split at hfound
    · rename_i habove
      cases hfound
      exact habove
    · cases hfound

/-- What the search takes is read back, if the magnitude itself is and every multiple that may
be chosen is. -/
theorem readsBack_coarsest {rank steps : Nat} {choose : Nat → Option Nat}
    (hchoose : ∀ grid multiple, choose grid = some multiple →
      readsBack rank (multiple * grid) = true)
    (hself : readsBack rank steps = true) (power : Nat) :
    readsBack rank ((coarsest choose steps power).1 *
      Nat.pow 10 (coarsest choose steps power).2) = true := by
  induction power with
  | zero => simpa using hself
  | succ power ih =>
      rw [coarsest]
      split
      · rename_i multiple hfound
        exact hchoose _ multiple hfound
      · exact ih

/-- The search finds a count of steps that is read back. -/
theorem readsBack_search {rank steps : Nat} (hself : readsBack rank steps = true) :
    readsBack rank ((search rank steps).1 * Nat.pow 10 (search rank steps).2) = true :=
  readsBack_coarsest (fun _ _ hfound => readsBack_of_neighbour? hfound) hself _

theorem nearestRank_zero {den : Nat} (hden : 0 < den) : nearestRank 0 den = 0 := by
  have hzero := Binary64.nearestRank_units 0 hden
  rwa [Binary64.units_zero, Nat.zero_mul] at hzero

/-- The shortest decimal of a magnitude, before its zeros are trimmed: a count of steps that
is read back. -/
theorem exists_shortest_eq {rank : Nat} (hrank : rank ≠ 0) :
    ∃ multiple power : Nat, multiple ≠ 0 ∧
      shortest rank = (ofNat multiple (power - 1074)).trim ∧
      nearestRank (multiple * Nat.pow 10 power) stepsPerUnit = rank := by
  have hself : readsBack rank (units rank * stepsPerUnit) = true :=
    (readsBack_iff _ _).2 (Binary64.nearestRank_units rank stepsPerUnit_pos)
  have hfound := (readsBack_iff _ _).1 (readsBack_search hself)
  refine ⟨_, _, ?_, by rw [shortest, if_neg hrank], hfound⟩
  intro hzero
  rw [hzero, Nat.zero_mul, nearestRank_zero stepsPerUnit_pos] at hfound
  exact hrank hfound.symm

/-! ## Trimming -/

theorem takeWhile_zero_eq (digits : List Char) :
    digits.takeWhile (· == '0') =
      List.replicate (digits.takeWhile (· == '0')).length '0' := by
  rw [List.eq_replicate_iff]
  refine ⟨rfl, fun c hc => ?_⟩
  simpa using List.mem_takeWhile_imp hc

/-- What is trimmed are zeros. -/
theorem exists_digits_eq (d : Decimal) :
    ∃ count, d.digits = d.trim.digits ++ List.replicate count '0' := by
  have hsplit := congrArg List.reverse
    (List.takeWhile_append_dropWhile (p := (· == '0')) (l := d.digits.reverse))
  rw [List.reverse_append, List.reverse_reverse, takeWhile_zero_eq,
    List.reverse_replicate] at hsplit
  exact ⟨_, hsplit.symm⟩

/-- Trimming trades zeros for powers of ten. -/
theorem exists_trim_eq (d : Decimal) :
    ∃ count : Nat, d.significand = d.trim.significand * 10 ^ count ∧
      d.trim.exponent = d.exponent + count := by
  rcases exists_digits_eq d with ⟨count, hdigits⟩
  refine ⟨count, ?_, ?_⟩
  · rw [significand, hdigits, Nat.ofDigitChars_append, Nat.ofDigitChars_replicate_zero,
      Nat.mul_comm, significand]
  · have hlength := congrArg List.length hdigits
    rw [List.length_append, List.length_replicate] at hlength
    have hpoint : d.trim.point = d.point := rfl
    simp only [exponent, hpoint]
    omega

/-- Trimming changes no value. -/
theorem ofDecimal_trim (negative : Bool) (d : Decimal) :
    Binary64.ofDecimal negative d.trim.significand d.trim.exponent =
      Binary64.ofDecimal negative d.significand d.exponent := by
  rcases exists_trim_eq d with ⟨count, hsignificand, hexponent⟩
  rw [hsignificand, Binary64.ofDecimal_mul_pow, hexponent]

/-! ## Reading back -/

/-- The shortest decimal of a number is read back as it. -/
theorem ofDecimal_shortest (negative : Bool) (rank : Fin Binary64.rankLimit) :
    Binary64.ofDecimal negative (shortest rank).significand (shortest rank).exponent =
      .finite negative rank := by
  by_cases hrank : rank.val = 0
  · have hzero : shortest rank = zero := by rw [hrank, shortest, if_pos rfl]
    rw [hzero, Binary64.ofDecimal]
    apply Binary64.ofRatio_eq_finite
    have hsignificand : zero.significand = 0 := rfl
    rw [hsignificand, Nat.zero_mul, Nat.zero_mul, hrank]
    exact nearestRank_zero (Nat.pow_pos (by decide))
  · rcases exists_shortest_eq hrank with ⟨multiple, power, -, hshortest, hnearest⟩
    rw [hshortest, ofDecimal_trim, significand_ofNat, exponent_ofNat, ofDecimal_eq_ofRatio,
      Binary64.ofRatio_eq_finite negative hnearest]

end Decimal
end Lox
