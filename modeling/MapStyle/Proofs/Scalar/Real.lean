import Mathlib.Analysis.SpecialFunctions.Log.Base
import Mathlib.Analysis.SpecialFunctions.Trigonometric.Arctan
import Mathlib.Analysis.SpecialFunctions.Trigonometric.Inverse
import MapStyle.Proofs.Scalar.Exact

/-!
# Real numbers as scalars

The real numbers are exact scalars, and all of them are finite. What has no real result, such as a
quotient by zero or an infinity, is zero. A real number is in general no decimal, so that there is no
text of it.
-/

namespace MapStyle.RealScalar

open Classical in
noncomputable scoped instance : Scalar ℝ where
  beq x y := decide (x = y)
  less x y := decide (x < y)
  atMost x y := decide (x ≤ y)
  isFinite _ := true
  infinity := 0
  ofInt n := n
  ofDecimal digits exponent := digits * 10 ^ exponent
  truncate := integerPart
  toNumeral _ _ := .nan
  abs x := |x|
  floor x := ⌊x⌋
  ceil x := ⌈x⌉
  round x := if 0 ≤ x then ⌊x + 1 / 2⌋ else ⌈x - 1 / 2⌉
  remainder x y := x - y * integerPart (x / y)
  power x y := x ^ y
  ln := Real.log
  log2 := Real.logb 2
  log10 := Real.logb 10
  sin := Real.sin
  cos := Real.cos
  tan := Real.tan
  asin := Real.arcsin
  acos := Real.arccos
  atan := Real.arctan
  e := Real.exp 1
  pi := Real.pi
  ln2 := Real.log 2

noncomputable scoped instance : ExactScalar ℝ where
  beq_eq x y := by
    show decide (x = y) = (decide (x ≤ y) && decide (y ≤ x))
    rw [← Bool.decide_and, decide_eq_decide]
    exact le_antisymm_iff
  less_eq {x y} _ _ := by
    show decide (x < y) = !decide (y ≤ x)
    rw [← decide_not, decide_eq_decide, not_le]
  self_of_less _ := ⟨decide_eq_true rfl, decide_eq_true rfl⟩
  atMost_trans hxy hyz := decide_eq_true ((of_decide_eq_true hxy).trans (of_decide_eq_true hyz))
  atMost_total {x y} _ _ := (le_total x y).imp decide_eq_true decide_eq_true
  ofReal x := x
  exists_of_isFinite {a} _ := ⟨a, rfl⟩
  exists_of_between {a} _ _ _ _ := ⟨a, rfl⟩
  atMost_iff := decide_eq_true_iff
  ofInt_eq _ := rfl
  add_eq _ _ := rfl
  sub_eq _ _ := rfl
  mul_eq _ _ := rfl
  div_eq _ _ _ := rfl
  remainder_eq _ _ _ := rfl
  power_eq _ _ := rfl

noncomputable scoped instance : ExactDecimals ℝ where
  abs_eq _ := rfl
  ofDecimal_eq _ _ := rfl

theorem ofInt_eq (n : ℤ) : (Scalar.ofInt n : ℝ) = n := rfl

end MapStyle.RealScalar
