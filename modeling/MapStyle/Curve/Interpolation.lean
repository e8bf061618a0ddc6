import MapStyle.Curve.Bezier
import MapStyle.Json.Basic

/-!
# Interpolation

How a curve moves from one stop to the next. `Interpolation.factor` says how far along the way an
input is: zero at the lower stop, one at the upper. A step curve stays at the lower stop.
-/

namespace MapStyle

/-- How a curve moves between two stops. -/
inductive Interpolation (N : Type) where
  | step
  | linear
  | exponential (base : N)
  | cubicBezier (easing : UnitBezier N)

namespace Interpolation

variable {N : Type} [Scalar N]

instance : BEq (Interpolation N) where
  beq
    | .step, .step => true
    | .linear, .linear => true
    | .exponential a, .exponential b => a == b
    | .cubicBezier a, .cubicBezier b => a == b
    | _, _ => false

/-- The name of a kind of interpolation. -/
def name : Interpolation N → String
  | .step => "step"
  | .linear => "linear"
  | .exponential _ => "exponential"
  | .cubicBezier _ => "cubic-bezier"

def isStep : Interpolation N → Bool
  | .step => true
  | _ => false

/-- The share of the way from `lower` to `upper` at `x`, where each unit of the way counts `base`
times the one before. -/
def exponentialFactor (base x lower upper : N) : N :=
  let one : N := Scalar.ofInt 1
  let difference := upper - lower
  let progress := x - lower
  if Scalar.isZero difference then Scalar.ofInt 0
  else if base == one then progress / difference
  else (Scalar.power base progress - one) / (Scalar.power base difference - one)

/-- The share of the way from `lower` to `upper` at `x` on a straight line. -/
def linearFactor (x lower upper : N) : N := exponentialFactor (Scalar.ofInt 1) x lower upper

/-- How far the output is blended from the lower stop to the upper one at `x`. -/
def factor (interpolation : Interpolation N) (x lower upper : N) : N :=
  match interpolation with
  | .step => Scalar.ofInt 0
  | .linear => linearFactor x lower upper
  | .exponential base => exponentialFactor base x lower upper
  | .cubicBezier easing => easing.solve (linearFactor x lower upper) (Scalar.ofDecimal 1 (-6))

/-- The JSON form: the name, then the parameters. -/
def toJson (interpolation : Interpolation N) : Json N :=
  .call interpolation.name (match interpolation with
    | .step | .linear => []
    | .exponential base => [Json.ofNumber base]
    | .cubicBezier easing => easing.controls.map Json.ofNumber)

end Interpolation

end MapStyle
