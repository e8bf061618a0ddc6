import MapStyle.Color.Css
import MapStyle.Failure
import MapStyle.Value.Coercion

/-!
# Assertions and conversions that can fail

An assertion passes a value on when its type is a subtype of the one asked for. A conversion yields
the number, text or color that a value stands for. Where there is none, both fail.
-/

namespace MapStyle.Value

variable {N : Type} [Scalar N]

/-- The value itself, if its type is a subtype of `expected`. `name` is what a message calls it. -/
def assertType (value : Value N) (expected : Ty) (name : Option String) : Outcome N (Value N) :=
  if value.type ≤ expected then .ok value
  else .error (.typeAssertion name expected value.type)

/-- The number that a value converts to. -/
def toNumber (value : Value N) : Outcome N N :=
  match value.asNumber? with
  | some x => .ok x
  | none => .error (.notANumber value)

/-- The text of a primitive value. -/
def toText (value : Value N) : Outcome N String :=
  match value with
  | .null | .boolean _ | .number _ | .string _ => .ok value.asText
  | other => .error (.notPrimitive other.kindName)

end MapStyle.Value

namespace MapStyle.Color

variable {N : Type} [Scalar N]

/-- The color that a text spells in CSS notation. -/
def ofText (text : String) : Outcome N (Color N) :=
  match ofCss? text with
  | some color => .ok color
  | none => .error (.notAColor text)

/-- The color of channels, red, green and blue counted up to 255; without an alpha it is opaque. -/
def ofChannels (red green blue : N) (alpha : Option N) : Outcome N (Color N) :=
  let zero : N := Scalar.ofInt 0
  let one : N := Scalar.ofInt 1
  let full : N := Scalar.ofInt 255
  let opacity := alpha.getD one
  let shown := [red, green, blue, opacity]
  if [red, green, blue].all (Scalar.within zero full) then
    if alpha.all (Scalar.within zero one) then
      .ok ⟨red / full, green / full, blue / full, opacity⟩
    else .error (.alphaOutOfRange shown)
  else .error (.channelOutOfRange shown)

end MapStyle.Color
