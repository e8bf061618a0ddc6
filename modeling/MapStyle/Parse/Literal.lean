import MapStyle.Parse.Context

/-!
# Parsing literals

`["literal", value]` stands for the value. Its numbers have to be small enough to be exact. An empty
array has no items to tell its type from, so it takes the array type that is asked for.
-/

namespace MapStyle

variable {N : Type} [Scalar N]

namespace Json

mutual

/-- Whether every number inside a value is small enough to be exact. -/
def isSafe : Json N → Bool
  | .integer n => Scalar.isSafe (Scalar.ofInt n : N)
  | .real x => Scalar.isSafe x
  | .array items => itemsSafe items
  | .object fields => fieldsSafe fields
  | _ => true

def itemsSafe : List (Json N) → Bool
  | [] => true
  | item :: rest => isSafe item && itemsSafe rest

def fieldsSafe : List (String × Json N) → Bool
  | [] => true
  | (_, value) :: rest => isSafe value && fieldsSafe rest

end

end Json

namespace Parse

/-- The type of a literal value where a type is asked for. -/
def literalType (value : Value N) (expected : Option Ty) : Ty :=
  match value, expected with
  | .array [], some (.array item none) => .array item none
  | .array [], some (.array item (some 0)) => .array item (some 0)
  | value, _ => value.type

/-- Parses the arguments of a literal. -/
def literal (c : Context) (args : List (Json N)) : Checked N (Expr N) :=
  match args with
  | [raw] =>
    if raw.isSafe then
      let value := Value.ofJson raw
      pure (.literal c.key (literalType value c.expected) value)
    else c.fail .numberTooLarge
  | args => c.fail (.literalArity args.length)

end Parse

end MapStyle
