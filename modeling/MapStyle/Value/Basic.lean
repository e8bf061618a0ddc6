import MapStyle.Color.Basic
import MapStyle.Ty

/-!
# Values

What expressions yield and what features hold. `Value.type` classifies a value: the type of an array
holds the common type of its items and its length. Equality is by kind and content, numbers by
numeric value, so that not a number differs from itself and the two zeros are equal.
-/

namespace MapStyle

/-- A value over scalars `N`. The fields of an object are ordered by name. -/
inductive Value (N : Type) where
  | null
  | boolean (b : Bool)
  | number (x : N)
  | string (s : String)
  | color (c : Color N)
  | object (fields : List (String × Value N))
  | array (items : List (Value N))
  deriving Inhabited

/-- The properties of a feature by name. -/
abbrev Properties (N : Type) := List (String × Value N)

namespace Value

variable {N : Type}

/-! ## Types of values -/

/-- The type that all items of an array share; `value` where they differ or there is none. -/
def commonType : List Ty → Ty
  | [] => .value
  | t :: rest => if rest.all (· == t) then t else .value

mutual

/-- The type of a value. -/
def type : Value N → Ty
  | .null => .null
  | .boolean _ => .boolean
  | .number _ => .number
  | .string _ => .string
  | .color _ => .color
  | .object _ => .object
  | .array items => .array (commonType (itemTypes items)) (some items.length)

/-- The types of array items. -/
def itemTypes : List (Value N) → List Ty
  | [] => []
  | item :: rest => type item :: itemTypes rest

end

/-- The name of the kind of a value. -/
def kindName (v : Value N) : String := v.type.kindName

theorem itemTypes_eq_map (items : List (Value N)) : itemTypes items = items.map type := by
  induction items with
  | nil => rfl
  | cons item rest ih => simp [itemTypes, ih]

/-! ## Equality -/

mutual

/-- Equality by kind and content. -/
def same [BEq N] : Value N → Value N → Bool
  | .null, .null => true
  | .boolean a, .boolean b => a == b
  | .number a, .number b => a == b
  | .string a, .string b => a == b
  | .color a, .color b => a == b
  | .object a, .object b => sameFields a b
  | .array a, .array b => sameItems a b
  | _, _ => false

/-- Equality of array items in order. -/
def sameItems [BEq N] : List (Value N) → List (Value N) → Bool
  | [], [] => true
  | a :: as, b :: bs => same a b && sameItems as bs
  | _, _ => false

/-- Equality of object fields in order. -/
def sameFields [BEq N] : List (String × Value N) → List (String × Value N) → Bool
  | [], [] => true
  | (n, a) :: as, (m, b) :: bs => n == m && same a b && sameFields as bs
  | _, _ => false

end

instance [BEq N] : BEq (Value N) := ⟨same⟩

/-! ## Parts of values -/

def number? : Value N → Option N
  | .number x => some x
  | _ => none

def string? : Value N → Option String
  | .string s => some s
  | _ => none

def boolean? : Value N → Option Bool
  | .boolean b => some b
  | _ => none

def isColor : Value N → Bool
  | .color _ => true
  | _ => false

def isNull : Value N → Bool
  | .null => true
  | _ => false

end Value

end MapStyle
