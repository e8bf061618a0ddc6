import MapStyle.Json.Text
import MapStyle.Value.Basic

/-!
# Values and JSON

`Value.ofJson` reads plain data. `Value.toJson` writes any value: a color becomes the expression
`["rgba", r, g, b, a]` with red, green and blue counted up to 255, and a number that is not finite
becomes null. `Value.text` is the compact text of that.
-/

namespace MapStyle.Value

variable {N : Type} [Scalar N]

mutual

/-- The value of plain data. -/
def ofJson : Json N → Value N
  | .null => .null
  | .boolean b => .boolean b
  | .integer n => .number (Scalar.ofInt n)
  | .real x => .number x
  | .string s => .string s
  | .array items => .array (ofItems items)
  | .object fields => .object (ofFields fields)

/-- The values of array items. -/
def ofItems : List (Json N) → List (Value N)
  | [] => []
  | item :: rest => ofJson item :: ofItems rest

/-- The values of object fields. -/
def ofFields : List (String × Json N) → List (String × Value N)
  | [] => []
  | (name, value) :: rest => (name, ofJson value) :: ofFields rest

end

mutual

/-- The JSON form of a value. -/
def toJson : Value N → Json N
  | .null => .null
  | .boolean b => .boolean b
  | .number x => Json.ofNumber x
  | .string s => .string s
  | .color c => .call "rgba" (c.scaled.map Json.ofNumber)
  | .object fields => .object (toFields fields)
  | .array items => .array (toItems items)

/-- The JSON forms of array items. -/
def toItems : List (Value N) → List (Json N)
  | [] => []
  | item :: rest => toJson item :: toItems rest

/-- The JSON forms of object fields. -/
def toFields : List (String × Value N) → List (String × Json N)
  | [] => []
  | (name, value) :: rest => (name, toJson value) :: toFields rest

end

/-- The compact JSON text of a value. -/
def text (v : Value N) : String := v.toJson.text

end MapStyle.Value
