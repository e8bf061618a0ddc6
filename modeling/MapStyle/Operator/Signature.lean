import MapStyle.Ty

/-!
# Signatures of operators

A signature is a result and a list of overloads, over types in which variables may stand. Matching
an argument type against a parameter binds the variables that it meets first; a later meeting asks
for a subtype of what was bound. `Signature.resolve?` tries the overloads in order.
-/

namespace MapStyle

/-- A type with variables. -/
inductive Pattern where
  | exact (type : Ty)
  | named (name : String)
  | array (item : Pattern) (length : Option Nat)
  deriving DecidableEq, Repr, Inhabited

/-- The types that variables stand for, in the order in which they were bound. -/
abbrev Bindings := List (String × Ty)

namespace Pattern

abbrev number : Pattern := .exact .number
abbrev string : Pattern := .exact .string
abbrev boolean : Pattern := .exact .boolean
abbrev value : Pattern := .exact .value

/-- The type, if the pattern has no variables. -/
def concrete? : Pattern → Option Ty
  | .exact type => some type
  | .named _ => none
  | .array item length => item.concrete?.map (Ty.array · length)

/-- The type with the variables put in. One that is not bound stands for `value`. -/
def resolve (bound : Bindings) : Pattern → Ty
  | .exact type => type
  | .named name => (bound.lookup name).getD .value
  | .array item length => .array (item.resolve bound) length

/-- The bindings under which `actual` is a subtype of the pattern, those given ones first; none if
it cannot be. The type `error` lies below every array and binds nothing there. -/
def unify? (bound : Bindings) (actual : Ty) : Pattern → Option Bindings
  | .exact type => if actual ≤ type then some bound else none
  | .named name => match bound.lookup name with
    | some type => if actual ≤ type then some bound else none
    | none => some (bound ++ [(name, actual)])
  | .array item length => match actual with
    | .array actualItem actualLength =>
      if length.isNone || actualLength == length then item.unify? bound actualItem else none
    | .error => some bound
    | _ => none

/-- The text of a pattern in messages. -/
def text : Pattern → String
  | .exact type => type.text
  | .named name => name
  | .array item (some length) => "Array<" ++ item.text ++ ", " ++ toString length ++ ">"
  | .array (.exact .value) none => "Array"
  | .array item none => "Array<" ++ item.text ++ ">"

end Pattern

/-- The parameters of one way to call an operator. -/
inductive Overload where
  /-- As many arguments as there are parameters. -/
  | exactly (params : List Pattern)
  /-- One or more arguments. -/
  | variadic (param : Pattern)
  deriving DecidableEq, Repr

namespace Overload

/-- Whether a number of arguments fits. -/
def fits : Overload → Nat → Bool
  | .exactly params, n => params.length == n
  | .variadic _, n => decide (1 ≤ n)

/-- The parameter at an index. -/
def param? : Overload → Nat → Option Pattern
  | .exactly params, i => params[i]?
  | .variadic param, _ => some param

/-- The bindings under which argument types fit their parameters, from the left. -/
def unifyAll? (bound : Bindings) : List Pattern → List Ty → Option Bindings
  | p :: params, t :: types => (p.unify? bound t).bind (unifyAll? · params types)
  | _, _ => some bound

/-- The bindings under which the overload takes arguments of the given types. -/
def accept? (o : Overload) (types : List Ty) : Option Bindings :=
  if o.fits types.length then
    match o with
    | .exactly params => unifyAll? [] params types
    | .variadic param => unifyAll? [] (List.replicate types.length param) types
  else none

/-- The text of an overload in messages. -/
def text : Overload → String
  | .exactly params => "(" ++ ", ".intercalate (params.map Pattern.text) ++ ")"
  | .variadic param => "(" ++ param.text ++ ", ...)"

end Overload

/-- The result of an operator and the ways to call it. -/
structure Signature where
  result : Pattern
  overloads : List Overload

namespace Signature

/-- The type of the result for argument types, by the first overload that takes them. -/
def resolve? (s : Signature) (types : List Ty) : Option Ty :=
  s.overloads.findSome? fun o => (o.accept? types).map s.result.resolve

/-- The type that the argument at an index is parsed against: that of the parameter, where there is
one overload only and the parameter has no variables. -/
def argumentType? (s : Signature) (i : Nat) : Option Ty :=
  match s.overloads with
  | [only] => (only.param? i).bind Pattern.concrete?
  | _ => none

/-- The number of arguments, where there is one overload only and it takes a fixed number. -/
def arity? (s : Signature) : Option Nat :=
  match s.overloads with
  | [.exactly params] => some params.length
  | _ => none

/-- The text of all overloads in messages. -/
def text (s : Signature) : String := " | ".intercalate (s.overloads.map Overload.text)

end Signature

end MapStyle
