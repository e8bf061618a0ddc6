import MapStyle.Expr.Eval
import MapStyle.Parse.Expr
import MapStyle.Property.Definition
import MapStyle.Property.ZoomCurve

/-!
# Style functions

A `StyleFunction` is what a style gives for a property: a constant, an expression or a legacy
function definition, all as one checked expression. Evaluating it never fails: where the expression
fails or is null there is no value. `StyleFunction.evaluate` also says what to warn of. A failure is
warned of once in the life of a function, so the messages warned of before are passed along.
-/

namespace MapStyle

/-- Why a style value is no function for a property. -/
inductive StyleError (N : Type) where
  | definition (e : DefinitionError)
  | parse (errors : List (ParseError N))
  | zoom (e : ZoomError)

/-- What a style gives for a property. A function that depends on the zoom has a zoom curve. -/
structure StyleFunction (N : Type) where
  expression : Expr N
  zoomCurve : Option (ZoomCurve N)

/-- The answer of a style function: its value, if any, and the messages to warn of. -/
structure StyleReply (N : Type) where
  value : Option (Value N)
  warnings : List String

namespace StyleFunction

variable {N : Type} [Scalar N]

/-! ## Building -/

/-- The raw expression of a style value for a property. -/
def source (spec : PropertySpec N) (raw : Json N) : Except DefinitionError (Json N) :=
  if Definition.isDefinition raw then
    match raw.field? "expression" with
    | some e => .ok (.call "coalesce" [e, spec.defaultExpression])
    | none => Definition.lowerJson spec raw
  else match spec.constant raw with
    | .null => .ok spec.defaultExpression
    | e => .ok e

/-- The style function of a checked expression. -/
def ofExpr (e : Expr N) : Except ZoomError (StyleFunction N) :=
  if e.isZoomConstant then .ok ⟨e, none⟩
  else match e.zoomCurve? with
    | .ok (some curve) => .ok ⟨e, some curve⟩
    | .ok none => .error (.noCurve e.key)
    | .error problem => .error problem

/-- The style function of a style value for a property. -/
def ofJson (spec : PropertySpec N) (raw : Json N) : Except (StyleError N) (StyleFunction N) :=
  match source spec raw with
  | .error problem => .error (.definition problem)
  | .ok written => match Expr.parse written (some spec.expectedType) with
    | .error errors => .error (.parse errors)
    | .ok e => match ofExpr e with
      | .error problem => .error (.zoom problem)
      | .ok f => .ok f

/-! ## Evaluating -/

/-- The environment of a style function, which sees properties and the zoom. -/
def environment (zoom : Option N) (properties : Properties N) : Env N :=
  ⟨zoom, ⟨properties, .null, .unknown⟩, []⟩

/-- The value of the expression, or its failure. -/
def outcome (f : StyleFunction N) (zoom : Option N) (properties : Properties N) :
    Outcome N (Value N) :=
  f.expression.eval (environment zoom properties)

/-- The answer of a function that has warned of `warned`, and what it has warned of then. -/
def evaluate (f : StyleFunction N) (warned : List String) (zoom : Option N)
    (properties : Properties N) : StyleReply N × List String :=
  match f.outcome zoom properties with
  | .ok .null => (⟨none, []⟩, warned)
  | .ok v => (⟨some v, []⟩, warned)
  | .error failure =>
    let message := failure.message
    if message ∈ warned then (⟨none, []⟩, warned) else (⟨none, [message]⟩, message :: warned)

/-- The answers of a function to calls in order, where it has warned of `warned` before. -/
def answersFrom (f : StyleFunction N) (warned : List String) :
    List (Option N × Properties N) → List (StyleReply N)
  | [] => []
  | (zoom, properties) :: rest =>
    let (reply, warned) := f.evaluate warned zoom properties
    reply :: answersFrom f warned rest

/-- The answers of a fresh function to calls in order. -/
def answers (f : StyleFunction N) (calls : List (Option N × Properties N)) :
    List (StyleReply N) :=
  f.answersFrom [] calls

end StyleFunction

end MapStyle
