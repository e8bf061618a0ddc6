import MapStyle.Decimal.Reading
import MapStyle.Text.Blank
import MapStyle.Value.Json

/-!
# Coercions

Conversions between kinds of values. They follow the rules that style authors know from the web:
blank text is zero, `Infinity` is a number and `NaN` is none, and empty or zero values are false.
-/

namespace MapStyle.Value

open Text

variable {N : Type} [Scalar N]

/-- The words that are numerals but spell no number here, in any letter case without a sign. -/
def reservedWords : List String := ["inf", "infinity", "nan"]

/-- The number that a text spells, blanks around it aside. -/
def numberOfText? (text : String) : Option N :=
  let body := trim text.toList
  if body = [] then some (Scalar.ofInt 0)
  else if body = "Infinity".toList ∨ body = "+Infinity".toList then some Scalar.infinity
  else if body = "-Infinity".toList then some (-Scalar.infinity)
  else if String.ofList (lowerBasic body) ∈ reservedWords then none
  else (Numeral.read? body).bind Scalar.ofNumeral?

/-- The number that a value converts to. Null converts to none. -/
def asNumber? : Value N → Option N
  | .boolean b => some (Scalar.ofInt (if b then 1 else 0))
  | .number x => if Scalar.isNaN x then none else some x
  | .string s => numberOfText? s
  | _ => none

/-- The text that a value converts to: a string is its own text, and what is not primitive is
written as JSON. -/
def asText : Value N → String
  | .null => "null"
  | .boolean b => if b then "true" else "false"
  | .number x => Scalar.toText x
  | .string s => s
  | v => v.text

/-- Whether a value counts as true. -/
def isTruthy : Value N → Bool
  | .null => false
  | .boolean b => b
  | .number x => !(Scalar.isZero x || Scalar.isNaN x)
  | .string s => s != ""
  | _ => true

end MapStyle.Value
