import MapStyle.Parse.Context

/-!
# Parsing variables

`["let", name, value, …, result]` binds variables in its result, and `["var", name]` is the variable.
Values are parsed outside of the scope that they make. The result is parsed only if all bindings are
in order.
-/

namespace MapStyle.Parse

variable {N : Type}

/-- Whether a text can name a variable: basic letters, digits and `_`, no digit first. -/
def isVariableName (name : String) : Bool :=
  match name.toList with
  | [] => false
  | c :: rest => !c.isDigit && (c :: rest).all fun c => c.isAlphanum || c == '_'

/-- Parses the arguments of a `var`. -/
def var (c : Context) (args : List (Json N)) : Checked N (Expr N) :=
  match args with
  | [.string name] => match c.lookup name with
    | some type => pure (.var c.key type name)
    | none => c.failAt 1 (.unboundVariable name)
  | _ => c.fail .varShape

/-- Parses one binding, whose name stands at index `i`. -/
def binding (c : Context) (i : Nat) (name value : Argument N) : Checked N (String × Expr N) :=
  match name.raw with
  | .string s =>
    if isVariableName s then (s, ·) <$> value.parse (c.child (i + 1) none)
    else c.failAt i .bindingName
  | other => c.failAt i (.bindingKind other.kind)

/-- Parses the arguments of a `let`. -/
def letIn (c : Context) (args : List (Argument N)) : Checked N (Expr N) :=
  if args.length < 3 then c.fail (.tooFewBindings args.length)
  else if args.length % 2 = 0 then c.fail .evenArguments
  else match args.getLast? with
    | none => c.fail (.tooFewBindings 0)
    | some result => do
      let bindings ← Checked.collect
        ((pairsFrom 1 args.dropLast).map fun (i, name, value) => binding c i name value)
      let scope := bindings.map fun (name, value) => (name, value.type)
      let result ← result.parse (c.childWith args.length c.expected scope)
      return .letIn c.key bindings result

end MapStyle.Parse
