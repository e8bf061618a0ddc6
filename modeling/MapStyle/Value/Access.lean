import MapStyle.Failure

/-!
# Looking into values

Items of arrays by index, fields of objects by key, and membership. `Value.contains` compares by kind
and content, and asks for a primitive value.
-/

namespace MapStyle.Value

variable {N : Type} [Scalar N]

/-- The item at an index, which has to be a whole number below the length. -/
def itemAt (index : N) (items : List (Value N)) : Outcome N (Value N) :=
  let length : N := Scalar.ofInt items.length
  if Scalar.atMost (Scalar.ofInt 0) index && Scalar.less index length then
    if Scalar.isWhole index then
      match items[(Scalar.truncate index).toNat]? with
      | some item => .ok item
      | none => .error (.indexOutOfBounds index items.length)
    else .error (.indexNotWhole index)
  else .error (.indexOutOfBounds index items.length)

/-- Whether an object has a key. `name` is what a message calls the object. -/
def hasKey (object : Value N) (key : String) (name : Option String) : Outcome N Bool :=
  match object with
  | .object fields => .ok (fields.lookup key).isSome
  | .null => .error (.nullObject key name)
  | other => .error (.notAnObject name other.kindName)

/-- The value of an object's key. -/
def atKey (object : Value N) (key : String) (name : Option String) : Outcome N (Value N) :=
  match object with
  | .object fields => match fields.lookup key with
    | some value => .ok value
    | none => .error (.keyNotFound key (name.getD "object"))
  | .null => .error (.nullObject key name)
  | other => .error (.notAnObject name other.kindName)

/-- The value of a property of a feature. -/
def property (properties : Properties N) (key : String) : Outcome N (Value N) :=
  match properties.lookup key with
  | some value => .ok value
  | none => .error (.keyNotFound key "feature properties")

/-- Whether a value has no parts. -/
def isPrimitive : Value N → Bool
  | .color _ | .object _ | .array _ => false
  | _ => true

/-- Whether an array has an item equal to a primitive value. -/
def contains (items : List (Value N)) (needle : Value N) : Outcome N Bool :=
  if needle.isPrimitive then .ok (items.any (· == needle))
  else .error (.needleNotPrimitive needle.kindName)

end MapStyle.Value
