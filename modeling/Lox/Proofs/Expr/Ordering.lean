import Lox.Proofs.Expr.Equality

/-!
# Order of trees

Six operators compare two numbers, and an equality and an order lie behind them.  Away from
not-a-number the answers follow the order of the exact values, so that one of less, equal and
greater holds.  With not-a-number every answer is that nothing holds, and the numbers are unequal.

Main results:

- Theorem {lit}`coherent_comparison`: the six answers follow one order.
- Theorem {lit}`ordering_coherent`: the answers for two operands in either order, and for three.
-/

namespace Lox
namespace Expr

/-! ## Answers -/

/-- The operators of a kind answer for two operands. -/
def Answers (kind : Token.Kind) (p q : Expr) (answer : Bool) : Prop :=
  ∀ operator : Token, operator.kind = kind →
    (binary p operator q).evaluate = .ok (.boolean answer)

/-- A comparison of two expressions answers what it answers for their values. -/
theorem answers_of_applyBinary {kind : Token.Kind} {p q : Expr} {v w : Value} {answer : Bool}
    (hp : p.evaluate = .ok v) (hq : q.evaluate = .ok w)
    (hanswer : kind.applyBinary v w = .ok (.boolean answer)) : Answers kind p q answer := by
  intro operator hkind
  apply evaluate_binary_of_applyBinary hp hq
  rw [hkind, hanswer]

/-- There is one answer. -/
theorem Answers.unique {kind : Token.Kind} {p q : Expr} {answer answer' : Bool}
    (hanswer : Answers kind p q answer) (hanswer' : Answers kind p q answer') :
    answer = answer' := by
  have hsame := (hanswer ⟨kind, "", .nil, 1⟩ rfl).symm.trans (hanswer' ⟨kind, "", .nil, 1⟩ rfl)
  rwa [Except.ok.injEq, Value.boolean.injEq] at hsame

/-- The answers of the six operators that compare. -/
structure Comparison (p q : Expr) where
  less : Bool
  lessEqual : Bool
  equal : Bool
  unequal : Bool
  greaterEqual : Bool
  greater : Bool
  answers_less : Answers .less p q less
  answers_lessEqual : Answers .lessEqual p q lessEqual
  answers_equal : Answers .equalEqual p q equal
  answers_unequal : Answers .bangEqual p q unequal
  answers_greaterEqual : Answers .greaterEqual p q greaterEqual
  answers_greater : Answers .greater p q greater

/-- Trees with numbers for their values are compared by these. -/
def comparison {p q : Expr} {x y : Binary64} (hp : p.evaluate = .ok (.number x))
    (hq : q.evaluate = .ok (.number y)) : Comparison p q where
  less := x.less y
  lessEqual := x.lessEqual y
  equal := x.equal y
  unequal := !x.equal y
  greaterEqual := y.lessEqual x
  greater := y.less x
  answers_less := answers_of_applyBinary hp hq rfl
  answers_lessEqual := answers_of_applyBinary hp hq rfl
  answers_equal := answers_of_applyBinary hp hq rfl
  answers_unequal := answers_of_applyBinary hp hq rfl
  answers_greaterEqual := answers_of_applyBinary hp hq rfl
  answers_greater := answers_of_applyBinary hp hq rfl

/-! ## One order -/

/-- The answers follow the order of two numbers. -/
structure Coherent (x y : Binary64) {p q : Expr} (answers : Comparison p q) : Prop where
  /-- One of less, equal and greater holds. -/
  one : x ≠ .nan → y ≠ .nan → [answers.less, answers.equal, answers.greater].count true = 1
  /-- The operators that include equality hold if one of their parts does. -/
  lessEqual_eq : answers.lessEqual = (answers.less || answers.equal)
  greaterEqual_eq : answers.greaterEqual = (answers.greater || answers.equal)
  unequal_eq : answers.unequal = !answers.equal
  /-- The answers are those of the exact values. -/
  agrees : ∀ r s, x.toEReal? = some r → y.toEReal? = some s →
    (answers.less = true ↔ r < s) ∧ (answers.lessEqual = true ↔ r ≤ s) ∧
      (answers.equal = true ↔ r = s) ∧ (answers.greaterEqual = true ↔ s ≤ r) ∧
      (answers.greater = true ↔ s < r)
  /-- With not-a-number nothing holds but that the numbers are unequal. -/
  nan : x = .nan ∨ y = .nan →
    (∀ answer ∈ [answers.less, answers.lessEqual, answers.greater, answers.greaterEqual,
      answers.equal], answer = false) ∧ answers.unequal = true

/-- The six answers follow one order. -/
theorem coherent_comparison {p q : Expr} {x y : Binary64} (hp : p.evaluate = .ok (.number x))
    (hq : q.evaluate = .ok (.number y)) : Coherent x y (comparison hp hq) where
  one := Binary64.count_less_equal_less
  lessEqual_eq := Binary64.lessEqual_eq x y
  greaterEqual_eq := by
    change y.lessEqual x = (y.less x || x.equal y)
    rw [x.equal_comm, Binary64.lessEqual_eq]
  unequal_eq := rfl
  agrees r s hr hs :=
    ⟨Binary64.less_iff hr hs, Binary64.lessEqual_iff hr hs, Binary64.equal_iff hr hs,
      Binary64.lessEqual_iff hs hr, Binary64.less_iff hs hr⟩
  nan hnan := by
    have hxy := fun holds => Binary64.compareValues_of_nan holds hnan
    have hyx := fun holds => Binary64.compareValues_of_nan holds hnan.symm
    simp [comparison, Binary64.less, Binary64.lessEqual, Binary64.equal, hxy, hyx]

/-- The answers for two trees with numbers for their values follow the order of these.  With the
operands exchanged, less is greater.  A tree that is less than a second one, which is less than a
third one, is less than the third one. -/
theorem ordering_coherent {p q t : Expr} {x y z : Binary64} (hp : p.evaluate = .ok (.number x))
    (hq : q.evaluate = .ok (.number y)) (ht : t.evaluate = .ok (.number z)) :
    ∃ (answers : Comparison p q) (answers' : Comparison q p),
      Coherent x y answers ∧
      answers.less = answers'.greater ∧
      answers.lessEqual = answers'.greaterEqual ∧
      (Answers .less p q true → Answers .less q t true → Answers .less p t true) := by
  refine ⟨comparison hp hq, comparison hq hp, coherent_comparison hp hq, rfl, rfl, ?_⟩
  intro hpq hqt
  have hxy : x.less y = true := (comparison hp hq).answers_less.unique hpq
  have hyz : y.less z = true := (comparison hq ht).answers_less.unique hqt
  rw [← Binary64.less_trans hxy hyz]
  exact (comparison hp ht).answers_less

/-- Negative infinity, the zero with its sign bit set, and the least number above zero. -/
theorem ordering_coherent_zero :
    ∃ answers : Comparison (literal (.number (.infinite true))) (literal (.number (.zero true))),
      Coherent (.infinite true) (.zero true) answers ∧ answers.less = true ∧
      Answers .less (literal (.number (.infinite true)))
        (literal (.number (.finite false ⟨1, by decide⟩))) true := by
  have hpq : Answers .less (literal (.number (.infinite true)))
      (literal (.number (.zero true))) true :=
    answers_of_applyBinary (evaluate_literal _) (evaluate_literal _) (by decide +kernel)
  have hqt : Answers .less (literal (.number (.zero true)))
      (literal (.number (.finite false ⟨1, by decide⟩))) true :=
    answers_of_applyBinary (evaluate_literal _) (evaluate_literal _) (by decide +kernel)
  rcases ordering_coherent (evaluate_literal _) (evaluate_literal _) (evaluate_literal _) with
    ⟨answers, answers', hcoherent, -, -, htrans⟩
  exact ⟨answers, hcoherent, answers.answers_less.unique hpq, htrans hpq hqt⟩

end Expr
end Lox
