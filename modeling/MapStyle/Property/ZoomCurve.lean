import MapStyle.Expr.Basic

/-!
# The zoom curve of an expression

A style property that depends on the zoom has to be a curve over it, so that it can be sampled at
the stops and blended in between. The curve may stand below `let` and `coalesce`. `Expr.zoomCurve?`
finds it.
-/

namespace MapStyle

/-- A curve whose input is the zoom. -/
structure ZoomCurve (N : Type) where
  key : Path
  type : Ty
  interpolation : Interpolation N
  stops : List (N × Expr N)

namespace ZoomCurve

variable {N : Type} [Scalar N]

/-- The inputs of the stops. -/
def stopInputs (curve : ZoomCurve N) : List N := curve.stops.map (·.1)

/-- The factor by which the curve blends the outputs of two stops at a zoom. -/
def factor (curve : ZoomCurve N) (zoom lower upper : N) : N :=
  curve.interpolation.factor zoom lower upper

end ZoomCurve

/-- Why an expression is not fit for a style property. -/
inductive ZoomError where
  /-- It depends on the zoom, and no curve over the zoom is to be found. -/
  | noCurve (key : Path)
  /-- There is more than one curve over the zoom; the key is that of a later one. -/
  | severalCurves (key : Path)
  deriving DecidableEq, Repr

namespace ZoomError

def key : ZoomError → Path
  | .noCurve key | .severalCurves key => key

def message : ZoomError → String
  | .noCurve _ => "Invalid zoom expression"
  | .severalCurves _ => "Only one zoom-based curve may be used in a style function."

/-- The message after the place. -/
def text (e : ZoomError) : String := e.key.text ++ ": " ++ e.message

end ZoomError

namespace Expr

variable {N : Type}

/-- Whether an expression is the zoom itself. -/
def isZoom : Expr N → Bool
  | .apply _ _ .zoom _ => true
  | _ => false

mutual

/-- The one curve over the zoom at the top of an expression, below `let` and `coalesce`, if there
is one. -/
def zoomCurve? : Expr N → Except ZoomError (Option (ZoomCurve N))
  | .curve key type interpolation input stops =>
    .ok (if input.isZoom then some ⟨key, type, interpolation, stops⟩ else none)
  | .letIn _ _ result => zoomCurve? result
  | .coalesce _ _ args => zoomCurveIn? none args
  | _ => .ok none

/-- The one curve over the zoom among arguments, where `found` is one found before. -/
def zoomCurveIn? (found : Option (ZoomCurve N)) :
    List (Expr N) → Except ZoomError (Option (ZoomCurve N))
  | [] => .ok found
  | arg :: rest => do
    match found, ← zoomCurve? arg with
    | found, none => zoomCurveIn? found rest
    | none, some first => zoomCurveIn? (some first) rest
    | some _, some later => .error (.severalCurves later.key)

end

end Expr

end MapStyle
