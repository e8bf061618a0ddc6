import MapStyle.Curve.Blend
import MapStyle.Curve.Interpolation
import MapStyle.Curve.Stops

/-!
# Evaluating curves

`Curve.select` says which outputs a curve needs at an input: one, or two neighbours and the factor
to blend them by. `Curve.evaluate` evaluates those and no others. It is written over any monad in
which an evaluation can fail, so that which outputs are evaluated can be observed.
-/

namespace MapStyle.Curve

variable {N : Type} [Scalar N]

/-- The outputs that a curve needs. -/
inductive Selection (N : Type) where
  /-- The output of one stop. -/
  | only (index : Nat)
  /-- The outputs of a stop and the next, blended by a factor. -/
  | between (index : Nat) (factor : N)

/-- The outputs needed at `x`: the first stop's below it and the last stop's above, in between those
of the stops around `x`. -/
def select (interpolation : Interpolation N) (stops : List N) (x : N) : Selection N :=
  let last := stops.length - 1
  if stops.length = 1 ∨ stops.head?.any (Scalar.atMost x) then .only 0
  else if stops.getLast?.any (Scalar.atMost · x) then .only last
  else
    let index := findStop stops x
    match interpolation, stops[index]?, stops[index + 1]? with
    | .step, _, _ => .only index
    | _, some lower, some upper => .between index (interpolation.factor x lower upper)
    | _, _, _ => .only index

section

variable {m : Type → Type} [Monad m] [MonadExceptOf (Failure N) m]

/-- Evaluates the output of a stop. -/
def output (outputs : List (m (Value N))) (index : Nat) : m (Value N) :=
  outputs[index]?.getD (throw .malformedStops)

/-- The value of a curve for the value of its input. -/
def evaluate (interpolation : Interpolation N) (kind : OutputKind) (stops : List N)
    (outputs : List (m (Value N))) (input : Value N) : m (Value N) :=
  match input with
  | .number x =>
    if stops.length = 0 ∨ stops.length ≠ outputs.length then throw .malformedStops
    else match select interpolation stops x with
      | .only index => output outputs index
      | .between index factor => do
        let lower ← output outputs index
        let upper ← output outputs (index + 1)
        match blend kind lower upper factor with
        | .ok value => pure value
        | .error failure => throw failure
  | other => throw (.typeAssertion (some "curve input") .number other.type)

end

end MapStyle.Curve
