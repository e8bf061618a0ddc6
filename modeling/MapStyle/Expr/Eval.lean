import MapStyle.Curve.Evaluation
import MapStyle.Expr.Basic

/-!
# Evaluating expressions

`Expr.eval` is the value of a checked expression in an environment, or the failure it meets. The
forms that choose what to evaluate receive the evaluations of their parts, not the values.
-/

namespace MapStyle.Expr

variable {N : Type} [Scalar N]

mutual

/-- The value of an expression. -/
def eval : Expr N → Eval N (Value N)
  | .literal _ _ value => pure value
  | .var _ _ name => fun env => env.lookup name
  | .letIn _ bindings result => do
    let bound ← evalBindings bindings
    withReader (·.bind bound) (eval result)
  | .coalesce _ _ args => MapStyle.coalesce (evalArgs args)
  | .conditional _ _ branches otherwise => firstTrue (evalBranches branches) (eval otherwise)
  | .matching _ _ input branches otherwise => do
    byLabel (← eval input) (evalLabelled branches) (eval otherwise)
  | .curve _ type interpolation input stops => do
    let v ← eval input
    Curve.evaluate interpolation (.ofType type) (stops.map (·.1)) (evalStops stops) v
  | .arrayOf _ item length input => do
    let v ← eval input
    Operator.report (v.assertType (.array item length) none)
  | .apply _ _ op args => do
    op.run (← read) (evalArgs args)

/-- The evaluations of arguments. -/
def evalArgs : List (Expr N) → List (Eval N (Value N))
  | [] => []
  | arg :: rest => eval arg :: evalArgs rest

/-- The values of bindings, from the first on. -/
def evalBindings : List (String × Expr N) → Eval N (List (String × Value N))
  | [] => pure []
  | (name, value) :: rest => do
    let v ← eval value
    return (name, v) :: (← evalBindings rest)

/-- The evaluations of conditions and outputs. -/
def evalBranches : List (Expr N × Expr N) → List (Eval N (Value N) × Eval N (Value N))
  | [] => []
  | (test, output) :: rest => (eval test, eval output) :: evalBranches rest

/-- The evaluations of labelled outputs. -/
def evalLabelled :
    List (List (Label N) × Expr N) → List (List (Label N) × Eval N (Value N))
  | [] => []
  | (labels, output) :: rest => (labels, eval output) :: evalLabelled rest

/-- The evaluations of the outputs of stops. -/
def evalStops : List (N × Expr N) → List (Eval N (Value N))
  | [] => []
  | (_, output) :: rest => eval output :: evalStops rest

end

end MapStyle.Expr
