import MapStyle.Json.Basic

/-!
# Compact JSON text

`Json.text` writes a value with no blanks. Strings escape the quote, the backslash and the control
characters below U+0020, nothing else.
-/

namespace MapStyle.Json

variable {N : Type}

/-- The two lower-case hexadecimal digits of a number below 256. -/
def hexPair (n : Nat) : List Char := [Nat.digitChar (n / 16), Nat.digitChar (n % 16)]

/-- A character as it stands between the quotes. -/
def escapeChar (c : Char) : List Char :=
  if c = '"' then ['\\', '"']
  else if c = '\\' then ['\\', '\\']
  else if c.toNat < 0x20 then
    if c = '\n' then ['\\', 'n']
    else if c = '\r' then ['\\', 'r']
    else if c = '\t' then ['\\', 't']
    else if c.toNat = 8 then ['\\', 'b']
    else if c.toNat = 12 then ['\\', 'f']
    else '\\' :: 'u' :: '0' :: '0' :: hexPair c.toNat
  else [c]

/-- A quoted string. -/
def quoted (s : String) : String :=
  String.ofList ('"' :: s.toList.flatMap escapeChar ++ ['"'])

mutual

/-- The compact text of a value. -/
def text [Scalar N] : Json N → String
  | .null => "null"
  | .boolean b => if b then "true" else "false"
  | .integer n => toString n
  | .real x => Scalar.write .json x
  | .string s => quoted s
  | .array items => "[" ++ ",".intercalate (itemTexts items) ++ "]"
  | .object fields => "\x7b" ++ ",".intercalate (fieldTexts fields) ++ "\x7d"

/-- The texts of array items. -/
def itemTexts [Scalar N] : List (Json N) → List String
  | [] => []
  | item :: rest => text item :: itemTexts rest

/-- The texts of object fields. -/
def fieldTexts [Scalar N] : List (String × Json N) → List String
  | [] => []
  | (name, value) :: rest => (quoted name ++ ":" ++ text value) :: fieldTexts rest

end

end MapStyle.Json
