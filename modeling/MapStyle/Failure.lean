import MapStyle.Value.Json

/-!
# Failures of evaluation

A `Failure` is the reason why an expression has no value for a feature. Data failures come from what
the feature, the zoom or an operand holds. The others can only arise in a tree whose types do not
fit, or where a primitive is used on its own. `Failure.message` words them.
-/

namespace MapStyle

/-- Why an evaluation failed. -/
inductive Failure (N : Type) where
  /-- The zoom is asked for and there is none. -/
  | zoomUnavailable
  /-- A key is absent from what `place` names. -/
  | keyNotFound (key : String) (place : String)
  /-- An assertion met a value of another type. -/
  | typeAssertion (name : Option String) (expected actual : Ty)
  /-- An index lies outside of an array. -/
  | indexOutOfBounds (index : N) (length : Nat)
  /-- An index has a fraction. -/
  | indexNotWhole (index : N)
  /-- A red, green or blue channel lies outside of 0 to 255. -/
  | channelOutOfRange (channels : List N)
  /-- An alpha channel lies outside of 0 to 1. -/
  | alphaOutOfRange (channels : List N)
  /-- A text is no color. -/
  | notAColor (text : String)
  /-- A value converts to no number. -/
  | notANumber (value : Value N)
  /-- A value that is not primitive is to be written as text. -/
  | notPrimitive (kind : String)
  /-- Membership is asked of a value that is not primitive. -/
  | needleNotPrimitive (kind : String)
  /-- Arrays of different lengths are to be blended. -/
  | blendLengths (lower upper : Nat)
  /-- The `error` operator. -/
  | raised (message : String)
  /-- A variable that nothing binds. -/
  | unknownVariable (name : String)
  /-- An operand of another kind than the operator takes, or none. -/
  | operandKind (expected : String) (found : Option String)
  /-- Operands that have no order. -/
  | incomparable (left right : Option String)
  /-- The length of something that has none. -/
  | noLength (found : Option String)
  /-- A key is asked of null. -/
  | nullObject (key : String) (name : Option String)
  /-- A key is asked of a value that is no object. -/
  | notAnObject (name : Option String) (kind : String)
  /-- An operator that needs an operand has none. -/
  | noOperand
  /-- A curve without stops, or with more or fewer outputs than stops. -/
  | malformedStops
  /-- Outputs that cannot be blended. -/
  | notBlendable (lower upper : Value N)

namespace Failure

variable {N : Type} [Scalar N]

/-- What a missing operand is called. -/
def orNothing (kind : Option String) : String := kind.getD "nothing"

/-- The texts of color channels in order. -/
def channelList (channels : List N) : String :=
  ", ".intercalate (channels.map Scalar.toText)

/-- The wording of a failure. -/
def message : Failure N → String
  | .zoomUnavailable => "The 'zoom' expression is unavailable in the current evaluation context."
  | .keyNotFound key place => "Property '" ++ key ++ "' not found in " ++ place
  | .typeAssertion name expected actual =>
    "Expected " ++ name.getD "value" ++ " to be of type " ++ expected.text ++ ", but found " ++
      actual.text ++ " instead."
  | .indexOutOfBounds index length =>
    "Array index out of bounds: " ++ Scalar.toText index ++ " > " ++ toString length ++ "."
  | .indexNotWhole index =>
    "Array index must be an integer, but found " ++ Scalar.toText index ++ " instead."
  | .channelOutOfRange channels =>
    "Invalid rgba value [" ++ channelList channels ++
      "]: 'r', 'g', and 'b' must be between 0 and 255."
  | .alphaOutOfRange channels =>
    "Invalid rgba value [" ++ channelList channels ++ "]: 'a' must be between 0 and 1."
  | .notAColor text => "Could not parse color from value '" ++ text ++ "'"
  | .notANumber value => "Could not convert " ++ value.text ++ " to number."
  | .notPrimitive kind =>
    "Expected a primitive value in [\"to-string\", ...], but found " ++ kind ++ " instead."
  | .needleNotPrimitive kind => "\"contains\" does not support values of type " ++ kind
  | .blendLengths lower upper =>
    "Cannot interpolate between arrays of length " ++ toString lower ++ " and " ++
      toString upper ++ "."
  | .raised message => message
  | .unknownVariable name => "Unknown variable \"" ++ name ++ "\"."
  | .operandKind expected found =>
    "Expected " ++ expected ++ " but found " ++ orNothing found ++ " instead."
  | .incomparable left right =>
    "Cannot compare " ++ orNothing left ++ " and " ++ orNothing right ++ "."
  | .noLength found =>
    "Expected argument of type string or array, but found " ++ orNothing found ++ " instead."
  | .nullObject key name =>
    "Cannot get property " ++ key ++ " from null object" ++
      (match name with | some name => " " ++ name | none => "") ++ "."
  | .notAnObject name kind =>
    "Expected " ++ name.getD "value" ++ " to be of type Object, but found " ++ kind ++ " instead."
  | .noOperand => "Expected at least one argument."
  | .malformedStops => "Curve stops are malformed."
  | .notBlendable lower upper =>
    "Cannot interpolate between " ++ lower.text ++ " and " ++ upper.text ++ "."

end Failure

/-- A computation over values that may fail. -/
abbrev Outcome (N : Type) (α : Type) := Except (Failure N) α

end MapStyle
