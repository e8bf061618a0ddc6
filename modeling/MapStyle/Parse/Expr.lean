import MapStyle.Parse.Binding
import MapStyle.Parse.Choice
import MapStyle.Parse.Curve
import MapStyle.Parse.Literal

/-!
# Parsing expressions

`Expr.parser` parses an expression as written, in a context. An array is a form or an operator by
its first item; null, booleans, numbers and strings stand for themselves. `Expr.parse` parses a whole
expression and yields all errors where there are any.
-/

namespace MapStyle

namespace Parse

variable {N : Type} [Scalar N]

/-- The types of items that an array check can ask for. -/
def itemType? : Json N → Option Ty
  | .string "string" => some .string
  | .string "number" => some .number
  | .string "boolean" => some .boolean
  | _ => none

/-- Parses the arguments of an array check: a type of items, a length, or neither, and the input. -/
def arrayOf (c : Context) (args : List (Argument N)) : Checked N (Expr N) :=
  let check (item : Ty) (length : Option Nat) (input : Argument N) : Checked N (Expr N) :=
    (fun e => .arrayOf c.key item length e) <$> input.parse (c.child args.length (some .value))
  match args with
  | [input] => check .value none input
  | [item, input] => match itemType? item.raw with
    | some item => check item none input
    | none => c.failAt 1 .arrayItem
  | [item, length, input] => match itemType? item.raw, length.raw.natural? with
    | some item, some length => check item (some length) input
    | some _, none => c.failAt 2 .arrayLength
    | none, _ => c.failAt 1 .arrayItem
  | args => c.fail (.arrayArity args.length)

/-- Parses the arguments of an operator. -/
def application (c : Context) (op : Operator) (args : List (Argument N)) : Checked N (Expr N) :=
  let signature := op.signature
  match signature.arity?.filter (· != args.length) with
  | some arity => c.fail (.arity arity args.length)
  | none => do
    let args ← Checked.collect
      ((args.zipIdx 1).map fun (arg, i) => arg.parse (c.child i (signature.argumentType? (i - 1))))
    let types := args.map Expr.type
    match signature.resolve? types with
    | some type => return .apply c.key type op args
    | none => c.fail (.argumentTypes signature types)

/-- Parses the arguments of the form or operator of a name. -/
def named (c : Context) (name : String) (args : List (Argument N)) : Checked N (Expr N) :=
  match name with
  | "literal" => literal c (args.map Argument.raw)
  | "var" => var c (args.map Argument.raw)
  | "let" => letIn c args
  | "coalesce" => coalesce c args
  | "case" => conditional c args
  | "match" => matching c args
  | "curve" => curve c args
  | "array" => arrayOf c args
  | name => match Operator.ofSymbol? name with
    | some op => application c op args
    | none => c.failAt 0 (.unknownName name)

/-- Parses an array as written: a name and arguments. -/
def form (c : Context) (items : List (Argument N)) : Checked N (Expr N) :=
  match items with
  | [] => c.fail .emptyExpression
  | head :: args => match head.raw with
    | .string name => named c name args >>= c.expect
    | other => c.failAt 0 (.nameKind other.kind)

end Parse

namespace Expr

variable {N : Type} [Scalar N]

mutual

/-- Parses an expression as written. -/
def parser : Json N → Parser N
  | .array items => fun c => Parse.form c (arguments items)
  | .object _ => fun c => c.fail .bareObject
  | primitive => fun c => Parse.literal c [primitive] >>= c.expect

/-- The items of an array, each with the way to parse it. -/
def arguments : List (Json N) → List (Argument N)
  | [] => []
  | item :: rest => ⟨item, parser item⟩ :: arguments rest

end

/-- The expression that a raw value spells, of a subtype of the type asked for, or all errors. -/
def parse (raw : Json N) (expected : Option Ty) : Except (List (ParseError N)) (Expr N) :=
  let parsed := parser raw (.root expected)
  match parsed.result, parsed.errors with
  | some e, [] => .ok e
  | _, [] => .error [⟨[], .unparsed⟩]
  | _, errors => .error errors

end Expr

end MapStyle
