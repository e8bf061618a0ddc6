import MapStyle.Expr.Basic
import MapStyle.Value.Json

/-!
# Writing expressions as JSON

`Expr.toJson` writes a checked expression in one form: primitive values stand for themselves, arrays
and objects stand in `["literal", …]`, a single label stands alone, and an array check names the type
of its items only where it asks for something.
-/

namespace MapStyle.Expr

variable {N : Type} [Scalar N]

/-- The JSON form of a literal. -/
def literalToJson : Value N → Json N
  | .array items => .call "literal" [(Value.array items).toJson]
  | .object fields => .call "literal" [(Value.object fields).toJson]
  | v => v.toJson

/-- The JSON form of the labels of one output. -/
def labelsToJson : List (Label N) → Json N
  | [label] => label.toJson
  | labels => .array (labels.map Label.toJson)

/-- What an array check says between its name and its input. -/
def arrayArguments (item : Ty) : Option Nat → List (Json N)
  | some length => [.string item.text, .integer length]
  | none => if item = .value then [] else [.string item.text]

mutual

/-- The JSON form of an expression. -/
def toJson : Expr N → Json N
  | .literal _ _ value => literalToJson value
  | .var _ _ name => .call "var" [.string name]
  | .letIn _ bindings result =>
    .call "let" (bindingsToJson bindings ++ [toJson result])
  | .coalesce _ _ args => .call "coalesce" (argsToJson args)
  | .conditional _ _ branches otherwise =>
    .call "case" (branchesToJson branches ++ [toJson otherwise])
  | .matching _ _ input branches otherwise =>
    .call "match" (toJson input :: labelledToJson branches ++ [toJson otherwise])
  | .curve _ _ interpolation input stops =>
    .call "curve" (interpolation.toJson :: toJson input :: stopsToJson stops)
  | .arrayOf _ item length input =>
    .call "array" (arrayArguments item length ++ [toJson input])
  | .apply _ _ op args => .call op.symbol (argsToJson args)

def argsToJson : List (Expr N) → List (Json N)
  | [] => []
  | arg :: rest => toJson arg :: argsToJson rest

def bindingsToJson : List (String × Expr N) → List (Json N)
  | [] => []
  | (name, value) :: rest => .string name :: toJson value :: bindingsToJson rest

def branchesToJson : List (Expr N × Expr N) → List (Json N)
  | [] => []
  | (test, output) :: rest => toJson test :: toJson output :: branchesToJson rest

def labelledToJson : List (List (Label N) × Expr N) → List (Json N)
  | [] => []
  | (labels, output) :: rest => labelsToJson labels :: toJson output :: labelledToJson rest

def stopsToJson : List (N × Expr N) → List (Json N)
  | [] => []
  | (input, output) :: rest => Json.ofNumber input :: toJson output :: stopsToJson rest

end

end MapStyle.Expr
