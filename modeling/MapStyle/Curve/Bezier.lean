import MapStyle.Scalar

/-!
# Easing by cubic Bézier curves

A `UnitBezier` runs from (0, 0) to (1, 1) with two control points. Each coordinate is a cubic in the
parameter of the curve. `UnitBezier.solve` finds the parameter at which the curve has a given `x`,
up to a tolerance, and yields the `y` there: `newton` tries a few steps, and where they do not
arrive `bisect` closes in on the parameter.
-/

namespace MapStyle

/-- The polynomial `a t ^ 3 + b t ^ 2 + c t`. -/
structure Cubic (N : Type) where
  a : N
  b : N
  c : N

namespace Cubic

variable {N : Type} [Scalar N]

/-- The coordinate with control points at `p` and `q`, which is 0 at 0 and 1 at 1. -/
def ofControls (p q : N) : Cubic N :=
  let three : N := Scalar.ofInt 3
  let c := three * p
  let b := three * (q - p) - c
  ⟨Scalar.ofInt 1 - c - b, b, c⟩

/-- The value at `t`. -/
def eval (k : Cubic N) (t : N) : N := ((k.a * t + k.b) * t + k.c) * t

/-- The derivative at `t`. -/
def slope (k : Cubic N) (t : N) : N :=
  (Scalar.ofInt 3 * k.a * t + Scalar.ofInt 2 * k.b) * t + k.c

/-- Newton's iteration from `t` for the point where the cubic is `x`, in at most `steps` steps. It
gives up where the cubic is flat. -/
def newton (k : Cubic N) (x tolerance : N) : (steps : Nat) → (t : N) → Option N
  | 0, _ => none
  | steps + 1, t =>
    let excess := k.eval t - x
    if Scalar.less (Scalar.abs excess) tolerance then some t
    else
      let slope := k.slope t
      if Scalar.less (Scalar.abs slope) (Scalar.ofDecimal 1 (-6)) then none
      else newton k x tolerance steps (t - excess / slope)

/-- The width below which a bracket is not halved any more, `2 ^ -52`. -/
def narrow : N := Scalar.ofInt 1 / Scalar.ofInt 4503599627370496

/-- Halves the bracket from `lo` to `hi` toward the point where the cubic is `x`, looking at `t`
first, until the cubic is near enough or the bracket is narrow. -/
def bisect (k : Cubic N) (x tolerance : N) : (steps : Nat) → (lo hi t : N) → N
  | 0, _, _, t => t
  | steps + 1, lo, hi, t =>
    if Scalar.less lo hi then
      let value := k.eval t
      if Scalar.less (Scalar.abs (value - x)) tolerance then t
      else
        let lo' := if Scalar.less value x then t else lo
        let hi' := if Scalar.less value x then hi else t
        let t' := (hi' - lo') * (Scalar.ofInt 1 / Scalar.ofInt 2) + lo'
        if Scalar.less (Scalar.abs (hi' - lo')) narrow then t'
        else bisect k x tolerance steps lo' hi' t'
    else t

/-- The parameter at which the cubic is `x`. The bracket starts as wide as one and is halved in each
step but the first, so that sixty-four steps make it narrow. -/
def solve (k : Cubic N) (x tolerance : N) : N :=
  match newton k x tolerance 8 x with
  | some t => t
  | none =>
    let zero : N := Scalar.ofInt 0
    let one : N := Scalar.ofInt 1
    if Scalar.less x zero then zero
    else if Scalar.less one x then one
    else bisect k x tolerance 64 zero one x

end Cubic

/-- The control points of a curve from (0, 0) to (1, 1). -/
structure UnitBezier (N : Type) where
  x1 : N
  y1 : N
  x2 : N
  y2 : N

namespace UnitBezier

variable {N : Type} [Scalar N]

/-- The horizontal coordinate. -/
def horizontal (b : UnitBezier N) : Cubic N := .ofControls b.x1 b.x2

/-- The vertical coordinate. -/
def vertical (b : UnitBezier N) : Cubic N := .ofControls b.y1 b.y2

/-- The control points in order. -/
def controls (b : UnitBezier N) : List N := [b.x1, b.y1, b.x2, b.y2]

/-- The coefficients of both coordinates. -/
def coefficients (b : UnitBezier N) : List N :=
  [b.horizontal.a, b.horizontal.b, b.horizontal.c, b.vertical.a, b.vertical.b, b.vertical.c]

/-- Curves are equal when their control points and coefficients are; one with a coefficient that is
not a number equals none. -/
instance : BEq (UnitBezier N) where
  beq a b := a.controls == b.controls && a.coefficients == b.coefficients

/-- The height of the curve above `x`. -/
def solve (b : UnitBezier N) (x tolerance : N) : N :=
  b.vertical.eval (b.horizontal.solve x tolerance)

end UnitBezier

end MapStyle
