import Mathlib.Algebra.Order.Field.Rat
import Mathlib.Data.Rat.Floor
import MapStyle.Proofs.Scalar.Field

/-!
# Rational numbers as scalars

The rational numbers are scalars that can be computed with, and no operation of the field is rounded. What
has no rational result, such as a sine or a power whose exponent is not whole, is zero.
-/

namespace MapStyle.RationalScalar

scoped instance : Scalar ℚ where
  beq x y := decide (x = y)
  less x y := decide (x < y)
  atMost x y := decide (x ≤ y)
  isFinite _ := true
  infinity := 0
  ofInt n := n
  ofDecimal digits exponent := digits * 10 ^ exponent
  truncate x := if 0 ≤ x then ⌊x⌋ else ⌈x⌉
  toNumeral _ _ := .nan
  abs x := |x|
  floor x := ⌊x⌋
  ceil x := ⌈x⌉
  round x := if 0 ≤ x then ⌊x + 1 / 2⌋ else ⌈x - 1 / 2⌉
  remainder x y := x - y * (if 0 ≤ x / y then ⌊x / y⌋ else ⌈x / y⌉ : ℤ)
  power x y := if y.den = 1 then x ^ y.num else 0
  ln _ := 0
  log2 _ := 0
  log10 _ := 0
  sin _ := 0
  cos _ := 0
  tan _ := 0
  asin _ := 0
  acos _ := 0
  atan _ := 0
  e := 0
  pi := 0
  ln2 := 0

scoped instance : FieldScalar ℚ ℚ where
  ofField x := x
  less_iff := decide_eq_true_iff
  ofInt_eq _ := rfl
  ofDecimal_eq _ _ := rfl
  abs_eq _ := rfl
  add_eq _ _ := rfl
  sub_eq _ _ := rfl
  mul_eq _ _ := rfl
  div_eq _ _ _ := rfl

end MapStyle.RationalScalar
