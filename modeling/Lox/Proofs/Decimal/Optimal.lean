import Lox.Proofs.Binary64.Exact
import Lox.Proofs.Decimal.Point

/-!
# Shortest decimals are shortest and nearest

No decimal that rounds to a number has fewer digits than its shortest decimal, and of those
with as many digits none is nearer to the number.  A decimal with few digits is on a coarse
grid, or so small that the power of ten of the leading digit is nearer; the search has tried
the coarser grids, and takes the nearest multiple on its own one.

Main results:

- Theorem {lit}`neighbour?_ne_none`, {lit}`abs_sub_neighbour?_le`: on each grid the multiples
  next to the magnitude are enough.
- Theorem {lit}`coarsest_search`: what the search finds.
- Theorem {lit}`exists_multiple`: decimals with few digits against the multiples of a grid.
- Theorem {lit}`length_shortest_le`, {lit}`abs_sub_shortest_le`: shortest decimals are shortest
  and nearest.
-/

namespace Lox
namespace Decimal

open Binary64 (exact nearestRank rankLimit Rounds units unitsPerOne)

/-! ## Neighbours -/

/-- What lies between two counts of steps that are read back as a rank is read back, too. -/
theorem readsBack_of_between {rank first last steps : Nat} (hfirst : readsBack rank first = true)
    (hlast : readsBack rank last = true) (hle : first ≤ steps) (hge : steps ≤ last) :
    readsBack rank steps = true := by
  rw [readsBack_iff] at *
  have hlower := nearestRank_mono_steps hle
  have hupper := nearestRank_mono_steps hge
  omega

/-- Of two numbers below a third one the greater is the nearer one. -/
theorem abs_sub_le_of_le_of_le {a b q : ℚ} (hle : b ≤ a) (hbelow : a ≤ q) :
    |q - a| ≤ |q - b| := by
  rw [abs_of_nonneg (by linarith), abs_of_nonneg (by linarith)]
  linarith

/-- Of two numbers above a third one the lesser is the nearer one. -/
theorem abs_sub_le_of_ge_of_ge {a b q : ℚ} (hge : a ≤ b) (habove : q ≤ a) :
    |q - a| ≤ |q - b| := by
  rw [abs_of_nonpos (by linarith), abs_of_nonpos (by linarith)]
  linarith

section Grid

variable {rank steps grid multiple : Nat}

/-- If any multiple is read back, the next one below or above on its side is. -/
theorem readsBack_side (hgrid : 0 < grid) (hself : readsBack rank steps = true)
    (hmultiple : readsBack rank (multiple * grid) = true) :
    (multiple * grid ≤ steps / grid * grid ∧ readsBack rank (steps / grid * grid) = true) ∨
      ((steps / grid + 1) * grid ≤ multiple * grid ∧
        readsBack rank ((steps / grid + 1) * grid) = true) := by
  have hbelow : steps / grid * grid ≤ steps := Nat.div_mul_le_self steps grid
  have habove : steps < (steps / grid + 1) * grid := by
    rw [Nat.mul_comm]
    exact Nat.lt_mul_div_succ steps hgrid
  rcases Nat.lt_or_ge (steps / grid) multiple with hgt | hle
  · right
    have hside := Nat.mul_le_mul_right grid hgt
    exact ⟨hside, readsBack_of_between hself hmultiple habove.le hside⟩
  · left
    have hside := Nat.mul_le_mul_right grid hle
    exact ⟨hside, readsBack_of_between hmultiple hself hside hbelow⟩

/-- A grid that holds a multiple which is read back has a neighbour which is. -/
theorem neighbour?_ne_none (hgrid : 0 < grid) (hself : readsBack rank steps = true)
    (hmultiple : readsBack rank (multiple * grid) = true) :
    neighbour? rank steps grid ≠ none := by
  rw [ne_eq, neighbour?_eq_none_iff]
  rintro ⟨hbelow, habove⟩
  rcases readsBack_side hgrid hself hmultiple with ⟨-, hside⟩ | ⟨-, hside⟩
  · rw [hside] at hbelow
    cases hbelow
  · rw [hside] at habove
    cases habove

/-- Of two neighbouring multiples the nearer one is taken. -/
theorem nearerMultiple_cases (steps grid below : Nat) :
    (nearerMultiple steps grid below = below ∧ 2 * steps ≤ (2 * below + 1) * grid) ∨
      (nearerMultiple steps grid below = below + 1 ∧ (2 * below + 1) * grid ≤ 2 * steps) := by
  unfold nearerMultiple
  dsimp only
  split
  · exact .inl ⟨rfl, by omega⟩
  · split
    · exact .inr ⟨rfl, by omega⟩
    · rcases Nat.mod_two_eq_zero_or_one below with heven | hodd
      · exact .inl ⟨by omega, by omega⟩
      · exact .inr ⟨by omega, by omega⟩

/-- The neighbour that is chosen is one of the two, and where both are read back it is no
farther than the middle between them. -/
theorem neighbour?_cases {found : Nat} (hfound : neighbour? rank steps grid = some found) :
    (found = steps / grid ∧ (readsBack rank ((steps / grid + 1) * grid) = true →
        2 * steps ≤ (2 * (steps / grid) + 1) * grid)) ∨
      (found = steps / grid + 1 ∧ (readsBack rank (steps / grid * grid) = true →
        (2 * (steps / grid) + 1) * grid ≤ 2 * steps)) := by
  unfold neighbour? at hfound
  dsimp only at hfound
  split at hfound
  · split at hfound
    · cases hfound
      exact (nearerMultiple_cases steps grid (steps / grid)).imp
        (fun hcase => ⟨hcase.1, fun _ => hcase.2⟩) fun hcase => ⟨hcase.1, fun _ => hcase.2⟩
    · rename_i habove
      cases hfound
      exact .inl ⟨rfl, fun hside => absurd hside habove⟩
  · rename_i hbelow
    split at hfound
    · cases hfound
      exact .inr ⟨rfl, fun hside => absurd hside hbelow⟩
    · cases hfound

/-- No multiple of the grid that is read back is nearer than the neighbour that is chosen. -/
theorem abs_sub_neighbour?_le {found : Nat} (hgrid : 0 < grid)
    (hself : readsBack rank steps = true) (hfound : neighbour? rank steps grid = some found)
    (hmultiple : readsBack rank (multiple * grid) = true) :
    |(steps : ℚ) - (found * grid : ℕ)| ≤ |(steps : ℚ) - (multiple * grid : ℕ)| := by
  have hbelow : steps / grid * grid ≤ steps := Nat.div_mul_le_self steps grid
  have habove : steps < (steps / grid + 1) * grid := by
    rw [Nat.mul_comm]
    exact Nat.lt_mul_div_succ steps hgrid
  have hmiddle : (2 * (steps / grid) + 1) * grid =
      steps / grid * grid + (steps / grid + 1) * grid := by ring
  have hside := readsBack_side hgrid hself hmultiple
  have hcases := neighbour?_cases hfound
  rw [hmiddle] at hcases
  have hlt : steps / grid * grid < (steps / grid + 1) * grid := hbelow.trans_lt habove
  generalize multiple * grid = other at *
  rcases hcases with ⟨rfl, hnear⟩ | ⟨rfl, hnear⟩
  · rcases hside with ⟨hle, -⟩ | ⟨hge, hreads⟩
    · exact abs_sub_le_of_le_of_le (by exact_mod_cast hle) (by exact_mod_cast hbelow)
    · have hdouble := (hnear hreads).trans (Nat.add_le_add_left hge _)
      exact (Binary64.abs_sub_le_of_two_mul_le (by exact_mod_cast hlt.trans_le hge)
        (by exact_mod_cast hdouble)).1
  · rcases hside with ⟨hle, hreads⟩ | ⟨hge, -⟩
    · have hdouble := (Nat.add_le_add_right hle _).trans (hnear hreads)
      exact (Binary64.abs_sub_le_of_le_two_mul (by exact_mod_cast hle.trans_lt hlt)
        (by exact_mod_cast hdouble)).1
    · exact abs_sub_le_of_ge_of_ge (by exact_mod_cast hge) (by exact_mod_cast habove.le)

end Grid

/-! ## The search -/

/-- The search takes the coarsest grid on which a multiple is chosen, or the magnitude
itself. -/
theorem coarsest_cases (choose : Nat → Option Nat) (steps top : Nat) :
    (coarsest choose steps top).2 ≤ top ∧
      (∀ power, (coarsest choose steps top).2 < power → power ≤ top →
        choose (Nat.pow 10 power) = none) ∧
      (coarsest choose steps top = (steps, 0) ∨
        choose (Nat.pow 10 (coarsest choose steps top).2) =
          some (coarsest choose steps top).1) := by
  induction top with
  | zero => exact ⟨le_rfl, fun power hlt hle => absurd hlt (Nat.not_lt.2 hle), .inl rfl⟩
  | succ top ih =>
      rw [coarsest]
      split
      · rename_i multiple hfound
        exact ⟨le_rfl, fun power hlt hle => absurd hlt (Nat.not_lt.2 hle), .inr hfound⟩
      · rename_i hnone
        rcases ih with ⟨hle, hskipped, hfound⟩
        refine ⟨Nat.le_succ_of_le hle, fun power hlt hpower => ?_, hfound⟩
        rcases Nat.lt_or_eq_of_le hpower with hlower | rfl
        · exact hskipped power hlt (Nat.le_of_lt_succ hlower)
        · exact hnone

/-- The count of digits of a natural number. -/
def digitCount (n : Nat) : Nat :=
  (Nat.toDigits 10 n).length

theorem digitCount_pos (n : Nat) : 0 < digitCount n :=
  Nat.length_toDigits_pos

theorem lt_pow_digitCount (n : Nat) : n < 10 ^ digitCount n :=
  (Nat.length_toDigits_le_iff (by decide) (digitCount_pos n)).1 le_rfl

/-- A multiple of the coarsest grid that holds one which is read back, and the nearest of those
on this grid.  Grids that are coarser than the leading digit do not count. -/
structure Coarsest (rank steps multiple power : Nat) : Prop where
  power_lt : power < digitCount steps
  not_readsBack : ∀ power', power < power' → power' < digitCount steps →
    ∀ other, readsBack rank (other * Nat.pow 10 power') = false
  readsBack : readsBack rank (multiple * Nat.pow 10 power) = true
  nearest : ∀ other, Decimal.readsBack rank (other * Nat.pow 10 power) = true →
    |(steps : ℚ) - (multiple * Nat.pow 10 power : ℕ)| ≤
      |(steps : ℚ) - (other * Nat.pow 10 power : ℕ)|
  le : multiple ≤ 10 ^ (digitCount steps - power)

/-- A number is read back from its own steps. -/
theorem readsBack_self (rank : Nat) : readsBack rank (units rank * stepsPerUnit) = true :=
  (readsBack_iff _ _).2 (Binary64.nearestRank_units rank stepsPerUnit_pos)

/-- The search finds such a multiple. -/
theorem coarsest_search {rank steps : Nat} (hself : readsBack rank steps = true) :
    Coarsest rank steps (search rank steps).1 (search rank steps).2 := by
  have hreads := readsBack_search hself
  have hpositive := digitCount_pos steps
  have hbelow := lt_pow_digitCount steps
  rcases coarsest_cases (neighbour? rank steps) steps (digitCount steps - 1) with
    ⟨hpower, hskipped, hfound⟩
  have hsearch : search rank steps =
      coarsest (neighbour? rank steps) steps (digitCount steps - 1) := rfl
  rw [← hsearch] at hpower hskipped hfound
  have hgrid (power : Nat) : 0 < Nat.pow 10 power := Nat.pow_pos (by decide)
  generalize search rank steps = found at *
  refine ⟨by omega, fun power' hlt hlt' other => ?_, hreads, fun other hother => ?_, ?_⟩
  · have hnone := hskipped power' hlt (by omega)
    rw [← Bool.not_eq_true]
    exact fun hother => neighbour?_ne_none (hgrid power') hself hother hnone
  · rcases hfound with rfl | hfound
    · have hexact : steps * Nat.pow 10 0 = steps := Nat.mul_one steps
      rw [hexact, sub_self, abs_zero]
      exact abs_nonneg _
    · exact abs_sub_neighbour?_le (hgrid _) hself hfound hother
  · rcases hfound with rfl | hfound
    · exact hbelow.le
    · have hquotient : steps / Nat.pow 10 found.2 < 10 ^ (digitCount steps - found.2) := by
        apply Nat.div_lt_of_lt_mul
        have hsum : found.2 + (digitCount steps - found.2) = digitCount steps := by omega
        rw [Nat.pow_eq, ← pow_add, hsum]
        exact hbelow
      rcases neighbour?_cases hfound with ⟨heq, -⟩ | ⟨heq, -⟩ <;> omega

/-! ## Values -/

/-- The rational number that a decimal stands for. -/
def value (d : Decimal) : ℚ :=
  d.significand * 10 ^ d.exponent

/-- Taking zeros from the end of a decimal does not change its value. -/
theorem value_trim (d : Decimal) : d.trim.value = d.value := by
  rcases exists_trim_eq d with ⟨count, hsignificand, hexponent⟩
  rw [value, value, hsignificand, hexponent, zpow_add₀ (by norm_num), zpow_natCast]
  push_cast
  ring

/-- The size of a step, {lit}`10 ^ -1074`. -/
def stepSize : ℚ :=
  1 / (unitsPerOne * stepsPerUnit : ℕ)

theorem stepSize_pos : 0 < stepSize := by
  have hsteps : (0 : ℚ) < stepsPerUnit := by exact_mod_cast stepsPerUnit_pos
  rw [stepSize, Nat.cast_mul]
  exact one_div_pos.2 (mul_pos Binary64.unitsPerOne_pos hsteps)

/-- A number is as many steps as its units make. -/
theorem exact_eq_mul_stepSize (rank : Nat) :
    exact rank = (units rank * stepsPerUnit : ℕ) * stepSize := by
  have hone := Binary64.unitsPerOne_pos.ne'
  have hsteps : (stepsPerUnit : ℚ) ≠ 0 := by exact_mod_cast stepsPerUnit_pos.ne'
  rw [exact, stepSize]
  push_cast
  field_simp

/-- A power of ten, in steps. -/
theorem zpow_eq_mul_stepSize (power : Int) : (10 : ℚ) ^ (power - 1074) = 10 ^ power * stepSize := by
  have hpower (depth : Nat) (hdepth : unitsPerOne * stepsPerUnit = Nat.pow 10 depth) :
      (10 : ℚ) ^ (power - depth) = 10 ^ power * stepSize := by
    rw [zpow_sub₀ (by norm_num), zpow_natCast, stepSize, hdepth, Nat.pow_eq, div_eq_mul_one_div]
    push_cast
    rfl
  have hvalue := hpower _ unitsPerOne_mul_stepsPerUnit
  rwa [Nat.cast_ofNat] at hvalue

/-- A count of steps is read back as a rank exactly if it rounds to its magnitude. -/
theorem readsBack_iff_rounds (rank : Fin rankLimit) (steps : Nat) :
    readsBack rank steps = true ↔ Rounds false (steps * stepSize) (.finite false rank) := by
  have hrounds := Binary64.rounds_ofRatio false steps stepsPerUnit_pos
  have hvalue : (steps : ℚ) / stepsPerUnit / unitsPerOne = steps * stepSize := by
    have hone := Binary64.unitsPerOne_pos.ne'
    have hsteps : (stepsPerUnit : ℚ) ≠ 0 := by exact_mod_cast stepsPerUnit_pos.ne'
    rw [stepSize]
    push_cast
    field_simp
  rw [hvalue] at hrounds
  rw [readsBack_iff]
  constructor
  · intro hnearest
    rwa [Binary64.ofRatio_eq_finite false hnearest] at hrounds
  · intro hrounds'
    exact Binary64.nearestRank_of_ofRatio_eq_finite (hrounds.unique hrounds')

/-! ## Competitors -/

/-- A number that is not zero is no less than the power of ten of its first digit. -/
theorem pow_digitCount_le {n : Nat} (hn : n ≠ 0) : 10 ^ (digitCount n - 1) ≤ n := by
  have hle := pow_length_toDigits_le hn
  have hcount : digitCount n = digitCount n - 1 + 1 := by
    have hpositive := digitCount_pos n
    omega
  change 10 ^ digitCount n ≤ 10 * n at hle
  rw [hcount, pow_succ, Nat.mul_comm] at hle
  exact Nat.le_of_mul_le_mul_left hle (by decide)

/-- A magnitude has steps unless it is zero. -/
theorem units_mul_stepsPerUnit_ne_zero {rank : Nat} (hrank : rank ≠ 0) :
    units rank * stepsPerUnit ≠ 0 :=
  (Nat.mul_pos (Binary64.units_pos hrank) stepsPerUnit_pos).ne'

section Competitor

variable {rank : Fin rankLimit} {significand count : Nat} {exponent : Int}

/-- A decimal that rounds to a magnitude other than zero has a digit. -/
theorem count_ne_zero (hrank : rank.val ≠ 0) (hsignificand : significand < 10 ^ count)
    (hrounds : Rounds false (significand * 10 ^ exponent) (.finite false rank)) : count ≠ 0 := by
  rintro rfl
  rw [Nat.lt_one_iff.1 hsignificand, Nat.cast_zero, zero_mul] at hrounds
  have hzero := (hrounds.eq_zero_iff le_rfl).2 (one_div_nonneg.2 (pow_nonneg zero_le_two 1075))
  cases hzero
  exact hrank rfl

/-- A decimal that rounds to a magnitude with few digits is no nearer to it than some multiple
of a coarse grid which does.  It is such a multiple itself, or it is below the power of ten of
the leading digit. -/
theorem exists_multiple (hrank : rank.val ≠ 0) (hsignificand : significand < 10 ^ count)
    (hrounds : Rounds false (significand * 10 ^ exponent) (.finite false rank)) {power : Nat}
    (hpower : count + power ≤ digitCount (units rank * stepsPerUnit)) :
    ∃ multiple, readsBack rank (multiple * Nat.pow 10 power) = true ∧
      |exact rank - (multiple * Nat.pow 10 power : ℕ) * stepSize| ≤
        |exact rank - significand * 10 ^ exponent| := by
  have hten : (10 : ℚ) ≠ 0 := by norm_num
  by_cases hcoarse : (power : Int) ≤ exponent + 1074
  · -- The decimal is a multiple itself.
    obtain ⟨more, hmore⟩ : ∃ more : Nat, exponent = more + power - 1074 :=
      ⟨(exponent + 1074 - power).toNat, by omega⟩
    have hvalue : ((significand * 10 ^ more * Nat.pow 10 power : ℕ) : ℚ) * stepSize =
        significand * 10 ^ exponent := by
      rw [hmore, zpow_eq_mul_stepSize, zpow_add₀ hten, zpow_natCast, zpow_natCast, Nat.pow_eq]
      push_cast
      ring
    refine ⟨significand * 10 ^ more, (readsBack_iff_rounds rank _).2 ?_, ?_⟩
    · rw [hvalue]
      exact hrounds
    · rw [hvalue]
  · -- The decimal is below the power of ten of the leading digit.
    have hcount := count_ne_zero hrank hsignificand hrounds
    obtain ⟨more, hmore⟩ : ∃ more, digitCount (units rank * stepsPerUnit) - 1 = more + power :=
      ⟨digitCount (units rank * stepsPerUnit) - 1 - power, by omega⟩
    have hleading := pow_digitCount_le (units_mul_stepsPerUnit_ne_zero hrank)
    have hvalue : ((10 ^ more * Nat.pow 10 power : ℕ) : ℚ) * stepSize =
        10 ^ ((more + power : Nat) - 1074 : Int) := by
      rw [zpow_eq_mul_stepSize, zpow_natCast, Nat.pow_eq, pow_add]
      push_cast
      rfl
    have hbelow : (significand : ℚ) * 10 ^ exponent ≤
        ((10 ^ more * Nat.pow 10 power : ℕ) : ℚ) * stepSize := by
      have hcast : (significand : ℚ) ≤ 10 ^ count := by exact_mod_cast hsignificand.le
      calc (significand : ℚ) * 10 ^ exponent ≤ 10 ^ count * 10 ^ exponent :=
            mul_le_mul_of_nonneg_right hcast (zpow_nonneg (by norm_num) exponent)
        _ = 10 ^ (count + exponent) := by rw [zpow_add₀ hten, zpow_natCast]
        _ ≤ 10 ^ ((more + power : Nat) - 1074 : Int) :=
            zpow_le_zpow_right₀ (by norm_num) (by omega)
        _ = _ := hvalue.symm
    have habove : ((10 ^ more * Nat.pow 10 power : ℕ) : ℚ) * stepSize ≤ exact rank := by
      rw [exact_eq_mul_stepSize]
      apply mul_le_mul_of_nonneg_right _ stepSize_pos.le
      rw [Nat.pow_eq, ← pow_add, ← hmore]
      exact_mod_cast hleading
    have hself : Rounds false (exact rank) (.finite false rank) := by
      rw [exact_eq_mul_stepSize, ← readsBack_iff_rounds]
      exact readsBack_self rank
    refine ⟨10 ^ more, (readsBack_iff_rounds rank _).2 ?_, ?_⟩
    · exact hrounds.between hself hbelow habove
    · exact abs_sub_le_of_le_of_le hbelow habove

/-- What the search finds is no farther from the magnitude than a decimal with so few digits
that its grid is as coarse. -/
theorem Coarsest.abs_sub_le {multiple power : Nat}
    (hcoarsest : Coarsest rank (units rank * stepsPerUnit) multiple power)
    (hrank : rank.val ≠ 0) (hsignificand : significand < 10 ^ count)
    (hrounds : Rounds false (significand * 10 ^ exponent) (.finite false rank))
    (hpower : count + power ≤ digitCount (units rank * stepsPerUnit)) :
    |exact rank - (multiple * Nat.pow 10 power : ℕ) * stepSize| ≤
      |exact rank - significand * 10 ^ exponent| := by
  rcases exists_multiple hrank hsignificand hrounds hpower with ⟨other, hreads, hle⟩
  refine le_trans ?_ hle
  have hnearest := hcoarsest.nearest other hreads
  rw [exact_eq_mul_stepSize, ← sub_mul, ← sub_mul, abs_mul, abs_mul]
  exact mul_le_mul_of_nonneg_right hnearest (abs_nonneg stepSize)

/-- A decimal that rounds to the magnitude has a digit at least for every power of ten between
its leading digit and the grid of the search. -/
theorem Coarsest.digitCount_le {multiple power : Nat}
    (hcoarsest : Coarsest rank (units rank * stepsPerUnit) multiple power)
    (hrank : rank.val ≠ 0) (hsignificand : significand < 10 ^ count)
    (hrounds : Rounds false (significand * 10 ^ exponent) (.finite false rank)) :
    digitCount (units rank * stepsPerUnit) ≤ count + power := by
  by_contra hlt
  have hcount := count_ne_zero hrank hsignificand hrounds
  rcases @exists_multiple rank significand count exponent hrank hsignificand hrounds (power + 1)
    (by omega) with ⟨other, hreads, -⟩
  have hnone := hcoarsest.not_readsBack (power + 1) (Nat.lt_succ_self power) (by omega) other
  rw [hreads] at hnone
  cases hnone

/-- Without its zeros, what the search finds has a digit at most for every power of ten between
the leading digit and its grid. -/
theorem Coarsest.length_trim_le {rank steps multiple power : Nat}
    (hcoarsest : Coarsest rank steps multiple power) (exponent : Int) :
    (ofNat multiple exponent).trim.digits.length ≤ digitCount steps - power := by
  have hpower := hcoarsest.power_lt
  rcases Nat.lt_or_eq_of_le hcoarsest.le with hlt | rfl
  · rcases exists_digits_eq (ofNat multiple exponent) with ⟨count, hdigits⟩
    have hlength := congrArg List.length hdigits
    rw [List.length_append] at hlength
    have hle := (Nat.length_toDigits_le_iff (by decide) (by omega)).2 hlt
    have hall : (ofNat multiple exponent).digits = Nat.toDigits 10 multiple := rfl
    rw [hall] at hlength
    omega
  · -- A multiple with one more digit is a power of ten, and on the next grid unless it is ten.
    have hreads := hcoarsest.readsBack
    have hsame : 10 ^ (digitCount steps - power) * Nat.pow 10 power =
        10 * Nat.pow 10 (digitCount steps - 1) := by
      have hsum : digitCount steps - power + power = digitCount steps - 1 + 1 := by omega
      rw [Nat.pow_eq, Nat.pow_eq, ← pow_add, ← pow_succ', hsum]
    have hnext : power + 1 = digitCount steps := by
      by_contra hne
      have hnone := hcoarsest.not_readsBack (digitCount steps - 1) (by omega) (by omega) 10
      rw [← hsame, hreads] at hnone
      cases hnone
    have hone : digitCount steps - power = 1 := by omega
    have hten : ((Nat.toDigits 10 (10 ^ 1)).reverse.dropWhile (· == '0')).reverse = ['1'] := by
      decide
    rw [hone, trim, ofNat]
    exact (congrArg List.length hten).le

end Competitor

/-! ## Shortest decimals -/

section Shortest

variable {rank : Fin rankLimit} {significand count : Nat} {exponent : Int}

/-- The shortest decimal is what the search finds, without its zeros. -/
theorem exists_coarsest (hrank : rank.val ≠ 0) :
    ∃ multiple power : Nat, Coarsest rank (units rank * stepsPerUnit) multiple power ∧
      shortest rank = (ofNat multiple (power - 1074)).trim ∧
      (shortest rank).value = (multiple * Nat.pow 10 power : ℕ) * stepSize := by
  have hshortest : shortest rank = (ofNat (search rank (units rank * stepsPerUnit)).1
      ((search rank (units rank * stepsPerUnit)).2 - 1074)).trim := by
    rw [shortest, if_neg hrank]
  refine ⟨_, _, coarsest_search (readsBack_self rank), hshortest, ?_⟩
  rw [hshortest, value_trim, value, significand_ofNat, exponent_ofNat, zpow_eq_mul_stepSize,
    zpow_natCast, Nat.pow_eq]
  push_cast
  ring

/-- No decimal that rounds to the magnitude has fewer digits than the shortest one. -/
theorem length_shortest_le (hrank : rank.val ≠ 0) (hsignificand : significand < 10 ^ count)
    (hrounds : Rounds false (significand * 10 ^ exponent) (.finite false rank)) :
    (shortest rank).digits.length ≤ count := by
  rcases exists_coarsest hrank with ⟨multiple, power, hcoarsest, hshortest, -⟩
  have hle := hcoarsest.length_trim_le (power - 1074)
  have hcount := hcoarsest.digitCount_le hrank hsignificand hrounds
  rw [hshortest]
  omega

/-- No decimal with as many digits that rounds to the magnitude is nearer than the shortest
one. -/
theorem abs_sub_shortest_le (hrank : rank.val ≠ 0) (hsignificand : significand < 10 ^ count)
    (hrounds : Rounds false (significand * 10 ^ exponent) (.finite false rank))
    (hcount : count ≤ (shortest rank).digits.length) :
    |exact rank - (shortest rank).value| ≤ |exact rank - significand * 10 ^ exponent| := by
  rcases exists_coarsest hrank with ⟨multiple, power, hcoarsest, hshortest, hvalue⟩
  have hle := hcoarsest.length_trim_le (power - 1074)
  have hpower := hcoarsest.power_lt
  rw [hshortest] at hcount
  rw [hvalue]
  exact hcoarsest.abs_sub_le hrank hsignificand hrounds (by omega)

end Shortest

end Decimal
end Lox
