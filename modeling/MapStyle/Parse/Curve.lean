import MapStyle.Curve.Blend
import MapStyle.Parse.Context

/-!
# Parsing curves

`["curve", interpolation, input, x, output, …]` has at least one stop. The inputs of the stops are
numbers in strictly ascending order, and the outputs share a type, which has to be one that the
interpolation can blend.
-/

namespace MapStyle.Parse

variable {N : Type} [Scalar N]

/-- The easing with the given control coordinates, where the horizontal ones lie between zero and
one. -/
def easing? : List N → Option (UnitBezier N)
  | [x1, y1, x2, y2] =>
    let inRange := Scalar.within (Scalar.ofInt 0) (Scalar.ofInt 1)
    if inRange x1 && inRange x2 then some ⟨x1, y1, x2, y2⟩ else none
  | _ => none

/-- Reads an interpolation: a list of a name and parameters. -/
def readInterpolation (raw : Json N) : Except (Problem N) (Interpolation N) :=
  match raw with
  | .array (.string "step" :: _) => .ok .step
  | .array (.string "linear" :: _) => .ok .linear
  | .array (.string "exponential" :: params) => match params.mapM Json.number? with
    | some [base] => .ok (.exponential base)
    | _ => .error .interpolationBase
  | .array (.string "cubic-bezier" :: params) => match (params.mapM Json.number?).bind easing? with
    | some easing => .ok (.cubicBezier easing)
    | none => .error .interpolationControls
  | .array (name :: _) => .error (.interpolationName name)
  | _ => .error .interpolationShape

/-- Parses the interpolation of a curve. -/
def interpolation (c : Context) (raw : Json N) : Checked N (Interpolation N) :=
  match readInterpolation raw with
  | .ok interpolation => pure interpolation
  | .error problem => c.failAt 1 problem

/-- Parses one stop, given the input of the last good stop and the type that outputs share. -/
def stopStep (c : Context) (state : Option N × Option Ty)
    (stop : Nat × Argument N × Argument N) : (Option N × Option Ty) × Checked N (N × Expr N) :=
  let (previous, shared) := state
  let (i, input, output) := stop
  match input.raw.number? with
  | none => (state, c.failAt i .stopInput)
  | some x =>
    if previous.any (Scalar.atMost x) then (state, c.failAt i .stopOrder)
    else
      let parsed := output.parse (c.child (i + 1) shared)
      let previous := if parsed.result.isSome then some x else previous
      ((previous, unifyOutput shared parsed.result), (x, ·) <$> parsed)

/-- Parses the arguments of a `curve`. -/
def curve (c : Context) (args : List (Argument N)) : Checked N (Expr N) :=
  if args.length < 4 then c.fail (.tooFewArguments 4 args.length)
  else if args.length % 2 = 1 then c.fail .oddArguments
  else match args with
    | kind :: input :: stops => do
      let kind := interpolation c kind.raw
      let input := input.parse (c.child 2 (some .number))
      let ((_, shared), stops) :=
        Checked.sweep (stopStep c) (none, c.outputHint) (pairsFrom 3 stops)
      let type := shared.getD .error
      let ((kind, input), stops) ← (kind.zip input).zip stops
      if !kind.isStep && Curve.OutputKind.ofType type == .discrete then
        c.fail (.notInterpolatable type kind.name)
      else return .curve c.key type kind input stops
    | _ => c.fail (.tooFewArguments 4 args.length)

end MapStyle.Parse
