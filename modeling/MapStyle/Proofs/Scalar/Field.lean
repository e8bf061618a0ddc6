import MapStyle.Proofs.Scalar.Exact

/-!
# Arithmetic of an ordered field

`FieldScalar K N` says that the numbers of the ordered field `K` are among the scalars `N`, with their
order and their arithmetic: nothing is rounded. It asks for no powers and no remainders, so that it holds
of the rational numbers too.
-/

namespace MapStyle

/-- Scalars among which are the numbers of an ordered field, with their order and arithmetic. -/
class FieldScalar (K : outParam Type) [Field K] [LinearOrder K] [IsStrictOrderedRing K] (N : Type)
    [Scalar N] where
  /-- A number of the field as a scalar. -/
  ofField : K → N
  less_iff {x y : K} : Scalar.less (ofField x) (ofField y) = true ↔ x < y
  ofInt_eq (n : ℤ) : Scalar.ofInt n = ofField n
  ofDecimal_eq (digits : ℕ) (exponent : ℤ) :
    Scalar.ofDecimal digits exponent = ofField (digits * 10 ^ exponent)
  abs_eq (x : K) : Scalar.abs (ofField x) = ofField |x|
  add_eq (x y : K) : ofField x + ofField y = ofField (x + y)
  sub_eq (x y : K) : ofField x - ofField y = ofField (x - y)
  mul_eq (x y : K) : ofField x * ofField y = ofField (x * y)
  div_eq (x : K) {y : K} : y ≠ 0 → ofField x / ofField y = ofField (x / y)

/-- Where nothing is rounded at all, the field is that of the real numbers. -/
noncomputable instance (N : Type) [Scalar N] [ExactDecimals N] : FieldScalar ℝ N where
  ofField := ExactScalar.ofReal
  less_iff := Scalar.less_ofReal
  ofInt_eq := ExactScalar.ofInt_eq
  ofDecimal_eq := ExactDecimals.ofDecimal_eq
  abs_eq := ExactDecimals.abs_eq
  add_eq := ExactScalar.add_eq
  sub_eq := ExactScalar.sub_eq
  mul_eq := ExactScalar.mul_eq
  div_eq := ExactScalar.div_eq

end MapStyle
