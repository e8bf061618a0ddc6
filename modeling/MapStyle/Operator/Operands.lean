import MapStyle.Failure

/-!
# Operands

An operator reads its operands by position and kind. A missing operand, or one of another kind, is a
failure; the signatures keep both out of checked expressions.
-/

namespace MapStyle.Operand

variable {N : Type}

/-- The operand at a position. -/
def get? (operands : List (Value N)) (i : Nat) : Option (Value N) := operands[i]?

/-- The number at a position. -/
def number (operands : List (Value N)) (i : Nat) : Outcome N N :=
  match get? operands i with
  | some (.number x) => .ok x
  | other => .error (.operandKind "number" (other.map Value.kindName))

/-- The string at a position. -/
def string (operands : List (Value N)) (i : Nat) : Outcome N String :=
  match get? operands i with
  | some (.string s) => .ok s
  | other => .error (.operandKind "string" (other.map Value.kindName))

/-- The truth of a boolean value. -/
def boolean : Value N → Outcome N Bool
  | .boolean b => .ok b
  | other => .error (.operandKind "boolean" (some other.kindName))

/-- The color at a position. -/
def color (operands : List (Value N)) (i : Nat) : Outcome N (Color N) :=
  match get? operands i with
  | some (.color c) => .ok c
  | other => .error (.operandKind "color" (other.map Value.kindName))

/-- The items of the array at a position. -/
def items (operands : List (Value N)) (i : Nat) : Outcome N (List (Value N)) :=
  match get? operands i with
  | some (.array items) => .ok items
  | other => .error (.operandKind "array" (other.map Value.kindName))

/-- All operands, which have to be numbers. -/
def numbers : List (Value N) → Outcome N (List N)
  | [] => .ok []
  | .number x :: rest => do return x :: (← numbers rest)
  | other :: _ => .error (.operandKind "number" (some other.kindName))

/-- All operands, which have to be strings. -/
def strings : List (Value N) → Outcome N (List String)
  | [] => .ok []
  | .string s :: rest => do return s :: (← strings rest)
  | other :: _ => .error (.operandKind "string" (some other.kindName))

end MapStyle.Operand
