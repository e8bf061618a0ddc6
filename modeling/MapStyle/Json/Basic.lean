import MapStyle.Scalar

/-!
# JSON values

Styles, filters and property declarations arrive as JSON. A number written as an integer is kept
apart from one written with a fraction or an exponent, because a few places ask for an integer;
elsewhere both are read through `Json.number?`. The fields of an object are kept in the order of
their names, each name once, as `Json.ofFields` arranges them.
-/

namespace MapStyle

/-- A JSON value over scalars `N`. -/
inductive Json (N : Type) where
  | null
  | boolean (b : Bool)
  | integer (n : Int)
  | real (x : N)
  | string (s : String)
  | array (items : List (Json N))
  | object (fields : List (String × Json N))
  deriving Inhabited

namespace Json

variable {N : Type}

/-- Puts a field in its place in a list of fields ordered by name, over an earlier one of the same
name. -/
def insertField (name : String) (value : Json N) :
    List (String × Json N) → List (String × Json N)
  | [] => [(name, value)]
  | (other, v) :: rest =>
    if name = other then (name, value) :: rest
    else if name < other then (name, value) :: (other, v) :: rest
    else (other, v) :: insertField name value rest

/-- The object with the given fields; of fields with one name the last counts. -/
def ofFields (fields : List (String × Json N)) : Json N :=
  .object (fields.foldl (fun sorted (name, value) => insertField name value sorted) [])

/-- The number, if it is finite. -/
def finite? [Scalar N] (x : N) : Option N := if Scalar.isFinite x then some x else none

/-- The integer or real that a number denotes. JSON has no infinities, so what is not finite denotes
nothing. -/
def number? [Scalar N] : Json N → Option N
  | .integer n => finite? (Scalar.ofInt n)
  | .real x => finite? x
  | _ => none

/-- The natural number that a number written as an integer denotes. -/
def natural? : Json N → Option Nat
  | .integer (.ofNat n) => some n
  | _ => none

def string? : Json N → Option String
  | .string s => some s
  | _ => none

def array? : Json N → Option (List (Json N))
  | .array items => some items
  | _ => none

/-- The field of an object by name. -/
def field? (name : String) : Json N → Option (Json N)
  | .object fields => fields.lookup name
  | _ => none

def isNull : Json N → Bool
  | .null => true
  | _ => false

def isArray : Json N → Bool
  | .array _ => true
  | _ => false

def isObject : Json N → Bool
  | .object _ => true
  | _ => false

/-- The kind of a value as error messages name it: everything but booleans, numbers and strings
counts as an object. -/
def kind : Json N → String
  | .boolean _ => "boolean"
  | .integer _ | .real _ => "number"
  | .string _ => "string"
  | _ => "object"

/-- Whether a value counts as given: null, false, zero, the empty string and the empty array do
not. -/
def isTruthy [Scalar N] : Json N → Bool
  | .null => false
  | .boolean b => b
  | .integer n => n != 0
  | .real x => !Scalar.isZero x
  | .string s => s != ""
  | .array items => !items.isEmpty
  | .object _ => true

/-- The JSON form of a number: an integer when it is one of magnitude below `2 ^ 53`, and null when
it is not finite. -/
def ofNumber [Scalar N] (x : N) : Json N :=
  match Scalar.toInt? x with
  | some n => .integer n
  | none => if Scalar.isFinite x then .real x else .null

/-- An expression as written: an array of a name and arguments. -/
def call (name : String) (args : List (Json N)) : Json N := .array (.string name :: args)

/-- The value at a path of array indices. -/
def at? : Json N → List Nat → Option (Json N)
  | value, [] => some value
  | .array items, i :: path => items[i]?.bind (at? · path)
  | _, _ :: _ => none

end Json

end MapStyle
