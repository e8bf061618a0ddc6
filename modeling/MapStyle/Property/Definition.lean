import MapStyle.Property.Spec

/-!
# Legacy function definitions

A style value was once made to depend on the zoom or a property by a function definition: a list of
stops, from input to output, with a type that says how they are read. `Definition.lower` gives the
expression that a definition stands for.

* A definition without a property is a curve over the zoom.
* One with a property is a curve over it, or for a categorical one a choice by its value.
* One with a property and stops that name a zoom and a value is a curve over the zoom, whose outputs
  are functions of the property.

The result falls back on the default of the definition, then on that of the property declaration.
-/

namespace MapStyle

/-- How the stops of a definition are read. -/
inductive FunctionKind where
  | identity
  | exponential
  | interval
  | categorical
  deriving DecidableEq, Repr

/-- The names of function kinds. -/
def FunctionKind.names : List (String × FunctionKind) :=
  [("identity", .identity), ("exponential", .exponential), ("interval", .interval),
    ("categorical", .categorical)]

/-- A legacy function definition. -/
structure Definition (N : Type) where
  kind : Option FunctionKind
  property : Option String
  stops : Option (List (Json N × Json N))
  base : Option N
  default : Option (Json N)

/-- Why a definition stands for no expression. -/
inductive DefinitionError where
  /-- It is not written as a definition. -/
  | malformed
  | noStops
  | identityWithoutProperty
  | zoomStopsWithoutProperty
  | categoryKind
  | categoryKindsDiffer
  | stopWithoutZoom
  | stopWithoutValue
  deriving DecidableEq, Repr

/-- The reason in words, but for a value that is not written as a definition. -/
def DefinitionError.reason? : DefinitionError → Option String
  | .malformed => none
  | .noStops => some "function has no stops"
  | .identityWithoutProperty => some "identity functions require a property"
  | .zoomStopsWithoutProperty => some "zoom-and-property functions require a property"
  | .categoryKind => some "categorical stop inputs must be strings, numbers or booleans"
  | .categoryKindsDiffer => some "categorical stop inputs must all be of one kind"
  | .stopWithoutZoom => some "zoom-and-property stop inputs require a numeric zoom"
  | .stopWithoutValue => some "zoom-and-property stop inputs require a value"

/-- The message of a definition error, where there is a reason. -/
def DefinitionError.message? (e : DefinitionError) : Option String :=
  e.reason?.map ("Invalid function definition - reason: " ++ ·)

namespace Definition

variable {N : Type}

/-! ## Reading -/

/-- Reads a stop, an input and an output. -/
def stop? : Json N → Option (Json N × Json N)
  | .array [input, output] => some (input, output)
  | _ => none

/-- Reads a list of stops. -/
def stops? : Json N → Option (List (Json N × Json N))
  | .array items => items.mapM stop?
  | _ => none

/-- Reads a definition, a record of its kind, property, stops, base and default. -/
def ofJson? [Scalar N] (raw : Json N) : Option (Definition N) := do
  let fields ← raw.record? ["type", "property", "stops", "base", "default"]
  let kind ← Json.optional (Json.choice? FunctionKind.names) "type" fields
  let property ← Json.optional Json.string? "property" fields
  let stops ← Json.optional stops? "stops" fields
  let base ← Json.optional Json.number? "base" fields
  let default ← Json.optional some "default" fields
  return { kind, property, stops, base, default }

/-- Whether a style value is a definition and no constant: an object with an expression, with stops,
or of type `identity`. A field that is null or false does not count. -/
def isDefinition (raw : Json N) : Bool :=
  let present (name : String) := match raw.field? name with
    | none | some .null | some (.boolean false) => false
    | some _ => true
  present "expression" || present "stops" ||
    (raw.field? "type").bind Json.string? == some "identity"

/-! ## Lowering -/

/-- The property, asserted to have the type of the style property it is used for. -/
def identity (spec : PropertySpec N) (property : String) : Json N :=
  let get := .call "get" [.string property]
  match spec.kind with
  | .color => .call "to-color" [.call "string" [get]]
  | .string | .enumeration => .call "string" [get]
  | .number => .call "number" [get]
  | .boolean => .call "boolean" [get]
  | .array => match spec.itemType with
    | .string | .number | .boolean =>
      let length := match spec.length with
        | some n => [Json.integer n]
        | none => []
      .call "array" (.string spec.itemType.text :: length ++ [get])
    | _ => .call "array" [get]

/-- The interpolation between stops. Only an exponential function blends, and only outputs that can
be blended. -/
def interpolation [Scalar N] (spec : PropertySpec N) (kind : FunctionKind) (base : Option N) :
    Json N :=
  if kind = .exponential ∧ spec.isInterpolatable then
    match base with
    | none => .call "linear" []
    | some base =>
      if base == Scalar.ofInt 1 then .call "linear" [] else .call "exponential" [.real base]
  else .call "step" []

/-- A curve over an input, with stops as written. -/
def curve (interpolation input : Json N) (stops : List (Json N × Json N)) : Json N :=
  .call "curve" (interpolation :: input :: stops.flatMap fun (x, output) => [x, output])

/-- The stops with their outputs as expressions. -/
def convertStops (spec : PropertySpec N) (stops : List (Json N × Json N)) :
    List (Json N × Json N) :=
  stops.map fun (x, output) => (x, spec.constant output)

/-- A choice of outputs by the value of a property, whose kind is that of the stop inputs. -/
def categorical (spec : PropertySpec N) (property : String) (stops : List (Json N × Json N))
    (default : Option (Json N)) : Except DefinitionError (Json N) :=
  let fallback := (default.map spec.constant).getD spec.defaultExpression
  match stops with
  | [] => .error .noStops
  | (first, _) :: _ =>
    let kind := first.kind
    let input := .call kind [.call "get" [.string property]]
    let choices := convertStops spec stops
    if kind = "object" then .error .categoryKind
    else if stops.any (·.1.kind != kind) then .error .categoryKindsDiffer
    else if kind = "boolean" then
      .ok (.call "case" (choices.flatMap (fun (x, output) => [.call "==" [input, x], output]) ++
        [fallback]))
    else
      .ok (.call "match" (input :: choices.flatMap (fun (x, output) => [x, output]) ++ [fallback]))

/-- A function of a property. -/
def ofProperty [Scalar N] (spec : PropertySpec N) (kind : FunctionKind) (base : Option N)
    (property : String) (stops : List (Json N × Json N)) (default : Option (Json N)) :
    Except DefinitionError (Json N) :=
  if kind = .categorical then categorical spec property stops default
  else
    .ok (curve (interpolation spec kind base) (.call "number" [.call "get" [.string property]])
      (convertStops spec stops))

/-- The zoom and the value that a stop input names. -/
def zoomAndValue [Scalar N] (input : Json N) : Except DefinitionError (N × Json N) :=
  match (input.field? "zoom").bind Json.number?, input.field? "value" with
  | some zoom, some value => .ok (zoom, value)
  | some _, none => .error .stopWithoutValue
  | none, _ => .error .stopWithoutZoom

/-- Gathers neighbours with one zoom into levels. -/
def levels [Scalar N] : List (N × Json N × Json N) → List (N × List (Json N × Json N))
  | [] => []
  | (zoom, stop) :: rest =>
    match levels rest with
    | (next, stops) :: others =>
      if zoom == next then (zoom, stop :: stops) :: others
      else (zoom, [stop]) :: (next, stops) :: others
    | [] => [(zoom, [stop])]

/-- A curve over the zoom, whose outputs are functions of a property. -/
def composite [Scalar N] (spec : PropertySpec N) (kind : FunctionKind) (base : Option N)
    (property : String) (stops : List (Json N × Json N)) : Except DefinitionError (Json N) := do
  let placed ← stops.mapM fun (input, output) => do
    let (zoom, value) ← zoomAndValue input
    return (zoom, value, output)
  let outputs ← (levels placed).mapM fun (zoom, stops) => do
    let inner ← ofProperty spec kind base property stops none
    return (Json.real zoom, inner)
  let outer := if kind = .categorical then .call "step" [] else interpolation spec kind base
  return curve outer (.call "zoom" []) outputs

/-- The expression of the stops of a definition. -/
def body [Scalar N] (spec : PropertySpec N) (kind : FunctionKind) (d : Definition N)
    (stops : List (Json N × Json N)) : Except DefinitionError (Json N) :=
  match stops with
  | [] => .error .noStops
  | (first, _) :: _ =>
    match d.property, first.isObject with
    | some property, true => composite spec kind d.base property stops
    | none, true => .error .zoomStopsWithoutProperty
    | some property, false => ofProperty spec kind d.base property stops d.default
    | none, false =>
      .ok (curve (interpolation spec kind d.base) (.call "zoom" []) (convertStops spec stops))

/-- The expression that a definition stands for. A definition without a type is exponential where
its outputs can be blended, else an interval function. -/
def lower [Scalar N] (spec : PropertySpec N) (d : Definition N) :
    Except DefinitionError (Json N) := do
  let kind := d.kind.getD (if spec.isInterpolatable then .exponential else .interval)
  let e ←
    if kind = .identity then
      match d.property with
      | some property => .ok (identity spec property)
      | none => .error .identityWithoutProperty
    else body spec kind d (d.stops.getD [])
  let own := match d.default with
    | some value => [spec.constant value]
    | none => []
  return .call "coalesce" (e :: own ++ [spec.defaultExpression])

/-- The expression that a raw definition stands for. -/
def lowerJson [Scalar N] (spec : PropertySpec N) (raw : Json N) :
    Except DefinitionError (Json N) :=
  match ofJson? raw with
  | some d => lower spec d
  | none => .error .malformed

end Definition

end MapStyle
