import MapStyle.Json.Record
import MapStyle.Ty

/-!
# Declarations of style properties

A `PropertySpec` declares a property of a style: its kind, its default, and for an array the kind of
its items and its length. `PropertySpec.expectedType` is the type that its values have to have.
-/

namespace MapStyle

/-- The kinds of style properties. -/
inductive PropertyKind where
  | color
  | string
  | number
  | enumeration
  | boolean
  | array
  deriving DecidableEq, Repr

/-- The names of property kinds. -/
def PropertyKind.names : List (String × PropertyKind) :=
  [("color", .color), ("string", .string), ("number", .number), ("enum", .enumeration),
    ("boolean", .boolean), ("array", .array)]

/-- The declaration of a style property. -/
structure PropertySpec (N : Type) where
  kind : PropertyKind
  /-- The value of the property where a style gives none. -/
  default : Option (Json N)
  /-- The kind of the items of an array. -/
  item : Option String
  /-- The length of an array. -/
  length : Option Nat
  /-- What is declared about the values of an enumeration. -/
  values : Option (List (String × Json N))

namespace PropertySpec

variable {N : Type}

/-- Reads the fields of an object. -/
def fields? : Json N → Option (List (String × Json N))
  | .object fields => some fields
  | _ => none

/-- Reads a declaration, a record of its kind, default, items, length and values. -/
def ofJson? (raw : Json N) : Option (PropertySpec N) := do
  let fields ← raw.record? ["type", "default", "value", "length", "values"]
  let kind ← Json.required (Json.choice? PropertyKind.names) "type" fields
  let default ← Json.optional some "default" fields
  let item ← Json.optional Json.string? "value" fields
  let length ← Json.optional Json.natural? "length" fields
  let values ← Json.optional fields? "values" fields
  return { kind, default, item, length, values }

/-- The type of the items of an array property; items of unknown kind can be any value. -/
def itemType (spec : PropertySpec N) : Ty :=
  match spec.item with
  | some "color" => .color
  | some "string" => .string
  | some "number" => .number
  | some "boolean" => .boolean
  | _ => .value

/-- The type that values of the property have to have. -/
def expectedType (spec : PropertySpec N) : Ty :=
  match spec.kind with
  | .color => .color
  | .string | .enumeration => .string
  | .number => .number
  | .boolean => .boolean
  | .array => .array spec.itemType spec.length

/-- Whether values of the property can be blended. -/
def isInterpolatable (spec : PropertySpec N) : Bool :=
  match spec.kind with
  | .number | .color => true
  | .array => spec.item == some "number"
  | _ => false

/-! ## Constants -/

/-- The expression of a constant value of the property. Null stays null. -/
def constant (spec : PropertySpec N) (value : Json N) : Json N :=
  match value with
  | .null => .null
  | value =>
    if spec.kind = .color then .call "to-color" [value]
    else match value with
      | .array _ | .object _ => .call "literal" [value]
      | value => value

/-- The expression of the default, which fails where none is declared. -/
def defaultExpression (spec : PropertySpec N) : Json N :=
  match spec.default with
  | some value => spec.constant value
  | none => .call "error" [.string "No default property value available"]

end PropertySpec

end MapStyle
