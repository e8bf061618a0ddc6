/-!
# Types

Every expression has one type. `value` is the greatest type and `error`, the type of an expression
that never yields a value, the least. Array types are covariant in their items, and an array type
with a length lies below the one without. `a ≤ b` says that `a` is a subtype of `b`.
-/

namespace MapStyle

/-- A type of the language. -/
inductive Ty where
  | null
  | number
  | string
  | boolean
  | color
  | object
  | value
  | array (item : Ty) (length : Option Nat)
  | error
  deriving DecidableEq, Repr, Inhabited

namespace Ty

/-- Whether `actual` is a subtype of `expected`. -/
def isSubtype : (actual expected : Ty) → Bool
  | .error, _ => true
  | _, .value => true
  | .array a m, .array b n => (n.isNone || m == n) && isSubtype a b
  | a, b => a == b

instance : LE Ty := ⟨fun a b => isSubtype a b = true⟩

instance (a b : Ty) : Decidable (a ≤ b) := inferInstanceAs (Decidable (isSubtype a b = true))

theorem error_le (t : Ty) : error ≤ t := by
  cases t <;> rfl

theorem le_value (t : Ty) : t ≤ value := by
  cases t <;> rfl

/-- The text of a type in messages. -/
def text : Ty → String
  | .null => "null"
  | .number => "number"
  | .string => "string"
  | .boolean => "boolean"
  | .color => "color"
  | .object => "object"
  | .value => "value"
  | .error => "error"
  | .array item (some length) => "Array<" ++ item.text ++ ", " ++ toString length ++ ">"
  | .array .value none => "Array"
  | .array item none => "Array<" ++ item.text ++ ">"

/-- The name of a type's kind, which leaves out what arrays hold. -/
def kindName : Ty → String
  | .null => "Null"
  | .number => "Number"
  | .string => "String"
  | .boolean => "Boolean"
  | .color => "Color"
  | .object => "Object"
  | .value => "Value"
  | .array .. => "Array"
  | .error => "Error"

def isArray : Ty → Bool
  | .array .. => true
  | _ => false

/-- What is reported where `actual` stands and is no subtype of `expected`. -/
def mismatch (expected actual : Ty) : String :=
  "Expected " ++ expected.text ++ " but found " ++ actual.text ++ " instead."

end Ty

end MapStyle
