import MapStyle.Expr.Basic
import MapStyle.Json.Text

/-!
# Errors of parsing

A `ParseError` is a place in the expression as written and a `Problem`, what is wrong there.
`Problem.message` words it.
-/

namespace MapStyle

/-- What can be wrong with an expression as written. -/
inductive Problem (N : Type) where
  /-- An object stands where an expression is asked for. -/
  | bareObject
  /-- An expression has no name. -/
  | emptyExpression
  /-- The name of an expression is no string. -/
  | nameKind (kind : String)
  /-- No expression has this name. -/
  | unknownName (name : String)
  /-- An expression has another type than asked for. -/
  | typeMismatch (expected actual : Ty)
  /-- An operator with a fixed number of arguments has more or fewer. -/
  | arity (expected found : Nat)
  /-- No overload of an operator takes its arguments. -/
  | argumentTypes (signature : Signature) (found : List Ty)
  /-- A form has fewer arguments than it needs. -/
  | tooFewArguments (least found : Nat)
  /-- A `let` has fewer arguments than it needs. -/
  | tooFewBindings (found : Nat)
  /-- A form that takes an odd number of arguments has an even one. -/
  | evenArguments
  /-- A form that takes an even number of arguments has an odd one. -/
  | oddArguments
  /-- A `coalesce` without arguments. -/
  | noArgument
  /-- A literal with more or less than one argument. -/
  | literalArity (found : Nat)
  /-- A number in a literal is too large to be exact. -/
  | numberTooLarge
  /-- A `var` with anything but one string. -/
  | varShape
  /-- A variable that no `let` around it binds. -/
  | unboundVariable (name : String)
  /-- The name of a binding is no string. -/
  | bindingKind (kind : String)
  /-- The name of a binding is no variable name. -/
  | bindingName
  /-- An output without labels. -/
  | noLabel
  /-- A number too large to be a label. -/
  | labelTooLarge
  /-- A number with a fraction as a label. -/
  | labelNotWhole
  /-- A label that is neither a number nor a string. -/
  | labelKind (kind : String)
  /-- A label that occurs before. -/
  | labelRepeated
  /-- An interpolation that is no list with a name. -/
  | interpolationShape
  /-- An interpolation of unknown name. -/
  | interpolationName (name : Json N)
  /-- An exponential interpolation without a number as its base. -/
  | interpolationBase
  /-- A cubic Bézier interpolation without four control coordinates in range. -/
  | interpolationControls
  /-- The input of a stop is no number. -/
  | stopInput
  /-- The input of a stop is not above that of the stop before. -/
  | stopOrder
  /-- Outputs that the interpolation of a curve cannot blend. -/
  | notInterpolatable (type : Ty) (interpolation : String)
  /-- An array check with too few or too many arguments. -/
  | arrayArity (found : Nat)
  /-- An array check for items of a type that it cannot check. -/
  | arrayItem
  /-- An array check for a length that is no natural number. -/
  | arrayLength
  /-- Nothing was found wrong, and yet there is no expression. -/
  | unparsed
  /-- A problem in a caller's own words. -/
  | reported (text : String)

namespace Problem

variable {N : Type} [Scalar N]

/-- The wording of a problem. -/
def message : Problem N → String
  | .bareObject => "Bare objects invalid. Use [\"literal\", \x7b...\x7d] instead."
  | .emptyExpression =>
    "Expected an array with at least one element. If you wanted a literal array, use " ++
      "[\"literal\", []]."
  | .nameKind kind =>
    "Expression name must be a string, but found " ++ kind ++
      " instead. If you wanted a literal array, use [\"literal\", [...]]."
  | .unknownName name =>
    "Unknown expression \"" ++ name ++
      "\". If you wanted a literal array, use [\"literal\", [...]]."
  | .typeMismatch expected actual => Ty.mismatch expected actual
  | .arity expected found =>
    "Expected " ++ toString expected ++ " argument" ++ (if expected = 1 then "" else "s") ++
      ", but found " ++ toString found ++ " instead."
  | .argumentTypes signature found =>
    "Expected arguments of type " ++ signature.text ++ ", but found (" ++
      ", ".intercalate (found.map Ty.text) ++ ") instead."
  | .tooFewArguments least found =>
    "Expected at least " ++ toString least ++ " arguments, but found only " ++ toString found ++
      "."
  | .tooFewBindings found =>
    "Expected at least 3 arguments, but found " ++ toString found ++ " instead."
  | .evenArguments => "Expected an odd number of arguments."
  | .oddArguments => "Expected an even number of arguments."
  | .noArgument => "Expected at least one argument."
  | .literalArity found =>
    "'literal' expression requires exactly one argument, but found " ++ toString found ++
      " instead."
  | .numberTooLarge => "Numeric values must be no larger than 9007199254740991."
  | .varShape => "'var' expression requires exactly one string literal argument."
  | .unboundVariable name =>
    "Unknown variable \"" ++ name ++ "\". Make sure \"" ++ name ++
      "\" has been bound in an enclosing \"let\" expression before using it."
  | .bindingKind kind => "Expected string, but found " ++ kind ++ " instead."
  | .bindingName =>
    "Variable names must contain only alphanumeric characters or '_', and must not start with a " ++
      "digit."
  | .noLabel => "Expected at least one branch label."
  | .labelTooLarge => "Branch labels must be integers no larger than 9007199254740991."
  | .labelNotWhole => "Numeric branch labels must be integer values."
  | .labelKind kind =>
    "Branch labels must be numbers or strings, but found " ++ kind ++ " instead."
  | .labelRepeated => "Branch labels must be unique."
  | .interpolationShape => "Expected an interpolation type expression."
  | .interpolationName name => "Unknown interpolation type " ++ name.text
  | .interpolationBase => "Exponential interpolation requires a numeric base."
  | .interpolationControls =>
    "Cubic bezier interpolation requires four numeric arguments with values between 0 and 1."
  | .stopInput =>
    "Input/output pairs for \"curve\" expressions must be defined using literal numeric values " ++
      "(not computed expressions) for the input values."
  | .stopOrder =>
    "Input/output pairs for \"curve\" expressions must be arranged with input values in strictly " ++
      "ascending order."
  | .notInterpolatable type interpolation =>
    "Type " ++ type.text ++ " is not interpolatable, and thus cannot be used as a " ++
      interpolation ++ " curve's output type."
  | .arrayArity found =>
    "Expected 1, 2, or 3 arguments, but found " ++ toString found ++ " instead."
  | .arrayItem => "The item type argument of \"array\" must be one of string, number, boolean"
  | .arrayLength => "The length argument to \"array\" must be a positive integer literal"
  | .unparsed => "Could not parse expression."
  | .reported text => text

end Problem

/-- A problem and where it is. -/
structure ParseError (N : Type) where
  key : Path
  problem : Problem N

namespace ParseError

variable {N : Type} [Scalar N]

/-- The wording of one error, its place in front. -/
def text (e : ParseError N) : String := e.key.text ++ ": " ++ e.problem.message

/-- The wording of several errors. -/
def listText (errors : List (ParseError N)) : String := ", ".intercalate (errors.map text)

end ParseError

end MapStyle
