import Lox.Expr.Eval
import Lox.Proofs.Binary64.Comparison

/-!
# Division

A quotient is not-a-number where it has no meaning.  Otherwise it has the sign of a product, and
it is infinite, zero, or the nearest number to the exact quotient of its operands.  This leaves no
choice.  So a division that knows nothing of a divisor of zero can be completed: there the
quotient is put together from two signs, and no gap is left between the two ways.

Main results:

- Theorem {lit}`IsQuotient.unique`: two numbers have one quotient.
- Theorem {lit}`isQuotient_div`: division finds it.
- Theorem {lit}`guardedDiv_eq`: a division by numbers other than zero is completed.
- Theorem {lit}`division_without_seam`: all of it, also for trees.
-/

namespace Lox
namespace Binary64

/-! ## Quotients -/

/-- The third number is the quotient of the first two. -/
structure IsQuotient (x y z : Binary64) : Prop where
  /-- There is no quotient with not-a-number, of two zeros and of two infinities. -/
  nan_iff : z = .nan ↔ x = .nan ∨ y = .nan ∨ (x.isZero = true ∧ y.isZero = true) ∨
    (x.isInfinite = true ∧ y.isInfinite = true)
  /-- The sign is that of a product. -/
  isNegative_eq : z ≠ .nan → z.isNegative = (x.isNegative ^^ y.isNegative)
  /-- Infinite are the quotients of an infinity, those by a zero, and those that are too great. -/
  isInfinite_iff : z ≠ .nan → (z.isInfinite = true ↔ x.isInfinite = true ∨ y.isZero = true ∨
    ∃ p q, x.toRat? = some p ∧ y.toRat? = some q ∧ q ≠ 0 ∧ 2 ^ 1024 - 2 ^ 970 ≤ |p / q|)
  /-- Zero are the quotients of a zero, those by an infinity, and those that are too small. -/
  isZero_iff : z ≠ .nan → (z.isZero = true ↔ x.isZero = true ∨ y.isInfinite = true ∨
    ∃ p q, x.toRat? = some p ∧ y.toRat? = some q ∧ q ≠ 0 ∧ |p / q| ≤ 1 / 2 ^ 1075)
  /-- The exact quotient of finite numbers is rounded to the nearest number, a tie to the even
  one. -/
  rounds : ∀ p q, x.toRat? = some p → y.toRat? = some q → q ≠ 0 →
    Rounds (x.isNegative ^^ y.isNegative) |p / q| z

/-- Two numbers have one quotient. -/
theorem IsQuotient.unique {x y z z' : Binary64} (hz : IsQuotient x y z)
    (hz' : IsQuotient x y z') : z = z' := by
  have hnan : z = .nan ↔ z' = .nan := hz.nan_iff.trans hz'.nan_iff.symm
  by_cases hnone : z = .nan
  · rw [hnone, hnan.1 hnone]
  have hsome : z' ≠ .nan := mt hnan.2 hnone
  have hsign : z.isNegative = z'.isNegative :=
    (hz.isNegative_eq hnone).trans (hz'.isNegative_eq hsome).symm
  have hinfinite : z.isInfinite = true ↔ z'.isInfinite = true :=
    (hz.isInfinite_iff hnone).trans (hz'.isInfinite_iff hsome).symm
  have hzero : z.isZero = true ↔ z'.isZero = true :=
    (hz.isZero_iff hnone).trans (hz'.isZero_iff hsome).symm
  by_cases hlarge : z.isInfinite = true
  · rw [eq_infinite_of_isInfinite hlarge, eq_infinite_of_isInfinite (hinfinite.1 hlarge), hsign]
  by_cases hsmall : z.isZero = true
  · rw [eq_zero_of_isZero hsmall, eq_zero_of_isZero (hzero.1 hsmall), hsign]
  -- Both operands are finite and the divisor is no zero, so that rounding decides.
  have hoperands := mt hz.nan_iff.2 hnone
  rw [hz.isInfinite_iff hnone] at hlarge
  rw [hz.isZero_iff hnone] at hsmall
  simp only [not_or] at hoperands hlarge hsmall
  rcases exists_toRat?_eq hoperands.1 hlarge.1 with ⟨p, hp⟩
  rcases exists_toRat?_eq hoperands.2.1 hsmall.2.1 with ⟨q, hq⟩
  have hne : q ≠ 0 := mt (isZero_iff_of_toRat? hq).2 hlarge.2.1
  exact (hz.rounds p q hp hq hne).unique (hz'.rounds p q hp hq hne)

/-! ## Division finds the quotient -/

/-- A quotient is not-a-number where an operand is, and for two zeros or two infinities. -/
theorem isQuotient_nan {x y : Binary64} (hnone : x = .nan ∨ y = .nan ∨
    (x.isZero = true ∧ y.isZero = true) ∨ (x.isInfinite = true ∧ y.isInfinite = true)) :
    IsQuotient x y .nan where
  nan_iff := iff_of_true rfl hnone
  isNegative_eq hne := absurd rfl hne
  isInfinite_iff hne := absurd rfl hne
  isZero_iff hne := absurd rfl hne
  rounds p q hp hq hne := by
    rcases hnone with rfl | rfl | ⟨-, hzero⟩ | ⟨hinfinite, -⟩
    · cases hp
    · cases hq
    · exact absurd ((isZero_iff_of_toRat? hq).1 hzero) hne
    · rw [eq_infinite_of_isInfinite hinfinite] at hp
      cases hp

/-- An infinity over a finite number is an infinity. -/
theorem isQuotient_infinite_finite (s t : Bool) (n : Fin rankLimit) :
    IsQuotient (.infinite s) (.finite t n) (.infinite (s ^^ t)) where
  nan_iff := by simp [isZero, isInfinite]
  isNegative_eq _ := rfl
  isInfinite_iff _ := iff_of_true rfl (.inl rfl)
  isZero_iff _ := by simp [isZero, isInfinite, toRat?]
  rounds p q hp := by cases hp

/-- A number that is no zero is infinite over a zero. -/
theorem isQuotient_finite_zero (s t : Bool) {m n : Fin rankLimit} (hm : m.val ≠ 0)
    (hn : n.val = 0) : IsQuotient (.finite s m) (.finite t n) (.infinite (s ^^ t)) where
  nan_iff := by simp [isZero, isInfinite, hm]
  isNegative_eq _ := rfl
  isInfinite_iff _ := iff_of_true rfl (.inr (.inl (by simp [isZero, hn])))
  isZero_iff _ := by simp [isZero, isInfinite, toRat?, hm, hn]
  rounds p q hp hq hne := absurd ((isZero_iff_of_toRat? hq).1 (by simp [isZero, hn])) hne

/-- A finite number over an infinity is a zero. -/
theorem isQuotient_finite_infinite (s t : Bool) (m : Fin rankLimit) :
    IsQuotient (.finite s m) (.infinite t) (.zero (s ^^ t)) where
  nan_iff := by simp [isZero, isInfinite, zero]
  isNegative_eq _ := rfl
  isInfinite_iff _ := by simp [isZero, isInfinite, toRat?, zero]
  isZero_iff _ := iff_of_true rfl (.inr (.inl rfl))
  rounds p q hp hq := by cases hq

/-- What the exact quotient of finite numbers rounds to is their quotient. -/
theorem isQuotient_of_rounds {s t : Bool} {m n : Fin rankLimit} {z : Binary64} (hn : n.val ≠ 0)
    (hz : Rounds (s ^^ t) |withSign s (exact m) / withSign t (exact n)| z) :
    IsQuotient (.finite s m) (.finite t n) z := by
  have hdivisor : withSign t (exact n) ≠ 0 := by
    rw [ne_eq, withSign_eq_zero_iff, exact_eq_zero_iff]
    exact hn
  have hinfinite : z.isInfinite = true ↔ z = .infinite (s ^^ t) := by
    rw [← hz.isNegative_eq]
    exact ⟨eq_infinite_of_isInfinite, fun heq => heq ▸ rfl⟩
  have hzero : z.isZero = true ↔ z = .zero (s ^^ t) := by
    rw [← hz.isNegative_eq]
    exact ⟨eq_zero_of_isZero, fun heq => heq ▸ rfl⟩
  have hexact (related : ℚ → Prop) :
      (∃ p q, (finite s m).toRat? = some p ∧ (finite t n).toRat? = some q ∧ q ≠ 0 ∧
        related |p / q|) ↔ related |withSign s (exact m) / withSign t (exact n)| := by
    simp [toRat?, hdivisor]
  refine ⟨iff_of_false hz.ne_nan (by simp [isZero, isInfinite, hn]),
    fun _ => hz.isNegative_eq, fun _ => ?_, fun _ => ?_, ?_⟩
  · rw [hexact fun q => 2 ^ 1024 - 2 ^ 970 ≤ q, hinfinite, hz.eq_infinite_iff, overflow]
    simp [isZero, isInfinite, hn]
  · rw [hexact fun q => q ≤ 1 / 2 ^ 1075, hzero, hz.eq_zero_iff (abs_nonneg _)]
    have hnone (hm : m.val = 0) :
        |withSign s (exact m) / withSign t (exact n)| ≤ 1 / 2 ^ 1075 := by
      rw [(withSign_eq_zero_iff s (exact m)).2 ((exact_eq_zero_iff m).2 hm), zero_div, abs_zero]
      positivity
    simpa [isZero, isInfinite] using hnone
  · intro p q hp hq hne
    rw [← Option.some_inj.1 hp, ← Option.some_inj.1 hq]
    exact hz

/-- The quotient of two magnitudes, in units. -/
theorem exact_div_exact (m n : Nat) :
    exact m / exact n = ((units m * unitsPerOne : ℕ) : ℚ) / units n / unitsPerOne := by
  have hone := unitsPerOne_pos.ne'
  rw [exact, exact, Nat.cast_mul, div_div_div_cancel_right₀ hone, mul_div_right_comm,
    mul_div_cancel_right₀ _ hone]

/-- The quotient of two finite numbers is the ratio of their units, unless the divisor is a zero. -/
theorem finite_div_finite (s t : Bool) (m n : Fin rankLimit) :
    finite s m / finite t n =
      if n.val = 0 then
        if m.val = 0 then .nan else .infinite (s ^^ t)
      else
        ofRatio (s ^^ t) (units m * unitsPerOne) (units n) :=
  rfl

/-- Division finds the quotient. -/
theorem isQuotient_div (x y : Binary64) : IsQuotient x y (x / y) := by
  cases x with
  | nan => exact isQuotient_nan (.inl rfl)
  | infinite s =>
      cases y with
      | nan => exact isQuotient_nan (.inr (.inl rfl))
      | infinite t => exact isQuotient_nan (.inr (.inr (.inr ⟨rfl, rfl⟩)))
      | finite t n => exact isQuotient_infinite_finite s t n
  | finite s m =>
      cases y with
      | nan => exact isQuotient_nan (.inr (.inl rfl))
      | infinite t => exact isQuotient_finite_infinite s t m
      | finite t n =>
          rw [finite_div_finite]
          split
          · rename_i hn
            split
            · rename_i hm
              exact isQuotient_nan (.inr (.inr (.inl ⟨by simp [isZero, hm], by simp [isZero, hn]⟩)))
            · rename_i hm
              exact isQuotient_finite_zero s t hm hn
          · rename_i hn
            apply isQuotient_of_rounds hn
            have hrounds := rounds_ofRatio (s ^^ t) (units m * unitsPerOne) (units_pos hn)
            rwa [abs_div, abs_withSign, abs_withSign, abs_of_nonneg (exact_nonneg m),
              abs_of_nonneg (exact_nonneg n), exact_div_exact]

/-! ## Divisors of zero -/

/-- The magnitude of the first number with the sign of the second. -/
def copySign (x y : Binary64) : Binary64 :=
  if y.isNegative then -x.magnitude else x.magnitude

/-- Division by means of one that is asked for divisors other than zero only.  The quotient by a
zero is put together from the signs of the operands. -/
def guardedDiv (divide? : Binary64 → Binary64 → Option Binary64) (x y : Binary64) :
    Option Binary64 :=
  if y.equal (.zero false) then
    if x.equal (.zero false) || decide (x = .nan) then
      some .nan
    else
      some (copySign (.infinite false) x * copySign .one y)
  else
    divide? x y

/-- An infinity and a one with the signs of two numbers make an infinity with the sign of their
quotient. -/
theorem copySign_mul_copySign (x y : Binary64) :
    copySign (.infinite false) x * copySign .one y =
      .infinite (x.isNegative ^^ y.isNegative) := by
  unfold copySign
  cases x.isNegative <;> cases y.isNegative <;> rfl

/-- A number that is not zero, divided by zero, is infinite with the sign of a product. -/
theorem div_eq_infinite {x y : Binary64} (hx : x ≠ .nan) (hnonzero : ¬x.isZero = true)
    (hzero : y.isZero = true) : x / y = .infinite (x.isNegative ^^ y.isNegative) := by
  have hquotient := isQuotient_div x y
  have hy := eq_zero_of_isZero hzero
  have hne : x / y ≠ .nan := by
    rw [ne_eq, hquotient.nan_iff, hy]
    simp [hx, hnonzero, isInfinite, zero]
  rw [← hquotient.isNegative_eq hne]
  exact eq_infinite_of_isInfinite ((hquotient.isInfinite_iff hne).2 (.inr (.inl hzero)))

/-- A division by numbers other than zero is completed to division. -/
theorem guardedDiv_eq {divide? : Binary64 → Binary64 → Option Binary64}
    (hdivide : ∀ x y, y.isZero = false → ∃ z, divide? x y = some z ∧ IsQuotient x y z)
    (x y : Binary64) : guardedDiv divide? x y = some (x / y) := by
  unfold guardedDiv
  rw [equal_zero, equal_zero]
  split
  · rename_i hzero
    split
    · rename_i hnone
      rw [Bool.or_eq_true, decide_eq_true_iff] at hnone
      rw [eq_comm, Option.some_inj, (isQuotient_div x y).nan_iff]
      exact hnone.elim (fun hx => .inr (.inr (.inl ⟨hx, hzero⟩))) .inl
    · rename_i hsome
      rw [Bool.or_eq_true, decide_eq_true_iff, not_or] at hsome
      rw [copySign_mul_copySign, div_eq_infinite hsome.2 hsome.1 hzero]
  · rename_i hnonzero
    rcases hdivide x y (Bool.eq_false_iff.2 hnonzero) with ⟨z, hz, hquotient⟩
    rw [hz, hquotient.unique (isQuotient_div x y)]

/-! ## Signs of operands -/

/-- The dividend passes its sign on to the quotient. -/
protected theorem neg_div (x y : Binary64) : -x / y = -(x / y) := by
  cases x with
  | nan => cases y <;> rfl
  | infinite s =>
      cases y with
      | finite t n => cases s <;> cases t <;> rfl
      | _ => rfl
  | finite s m =>
      cases y with
      | nan => rfl
      | infinite t => cases s <;> cases t <;> rfl
      | finite t n =>
          change finite (!s) m / finite t n = _
          rw [finite_div_finite, finite_div_finite, Bool.not_xor, ← neg_ofRatio]
          split
          · split <;> rfl
          · rfl

/-- A quotient is the same with either of its operands negated. -/
theorem div_neg_eq_neg_div (x y : Binary64) : x / -y = -x / y := by
  change div x (neg y) = div (neg x) y
  cases x <;> cases y <;> simp [div, neg]

/-- The divisor passes its sign on to the quotient. -/
protected theorem div_neg (x y : Binary64) : x / -y = -(x / y) := by
  rw [div_neg_eq_neg_div, Binary64.neg_div]

/-! ## All divisions -/

/-- Division leaves no gap.  Whatever answers for divisors other than zero, completed by the
infinities and not-a-number it answers for every divisor, and with the quotient.  A change of the
sign of an operand is a change of the sign of the quotient, and a tree that divides has the quotient
of its operands. -/
theorem division_without_seam {divide? : Binary64 → Binary64 → Option Binary64}
    (hdivide : ∀ x y, y.isZero = false → ∃ z, divide? x y = some z ∧ IsQuotient x y z)
    (x y : Binary64) :
    guardedDiv divide? x y = some (x / y) ∧
      IsQuotient x y (x / y) ∧
      (x / y ≠ .nan → -x / y = -(x / y) ∧ x / -y = -(x / y)) ∧
      ∀ (left : Expr) (operator : Token) (right : Expr), operator.kind = .slash →
        left.evaluate = .ok (.number x) → right.evaluate = .ok (.number y) →
        (Expr.binary left operator right).evaluate = .ok (.number (x / y)) := by
  refine ⟨guardedDiv_eq hdivide x y, isQuotient_div x y,
    fun _ => ⟨Binary64.neg_div x y, Binary64.div_neg x y⟩, ?_⟩
  intro left operator right hkind hleft hright
  apply Expr.evaluate_binary_of_applyBinary hleft hright
  rw [hkind]
  rfl

/-- Division with no answer for a divisor of zero. -/
def nonzeroDiv? (x y : Binary64) : Option Binary64 :=
  if y.isZero then none else some (x / y)

/-- A division with no answer for a divisor of zero has the quotient for every other one. -/
theorem exists_nonzeroDiv?_eq (x y : Binary64) (hy : y.isZero = false) :
    ∃ z, nonzeroDiv? x y = some z ∧ IsQuotient x y z :=
  ⟨x / y, by rw [nonzeroDiv?, hy]; rfl, isQuotient_div x y⟩

/-- The least number below zero, divided by the negative zero. -/
theorem division_without_seam_subnormal :
    (finite true ⟨1, by decide⟩) / zero true = .infinite false ∧
      nonzeroDiv? (finite true ⟨1, by decide⟩) (zero true) = none ∧
      guardedDiv nonzeroDiv? (finite true ⟨1, by decide⟩) (zero true) = some (.infinite false) :=
  ⟨rfl, rfl, (division_without_seam exists_nonzeroDiv?_eq _ _).1⟩

end Binary64
end Lox
