import MapStyle.Operator.Signature

/-!
# The operators

`Operator` lists every operator of the language. `Operator.symbol` is the name that expressions
write, `Operator.signature` what it takes and yields, and `Operator.dependency` what it reads besides
its arguments. The special forms, which have a syntax of their own, are not operators.

`ofSymbol?_symbol` and `symbol_of_ofSymbol?` say that symbols name operators one to one.
-/

namespace MapStyle

/-- Operators without arguments whose value is fixed. -/
inductive Constant where
  | e | pi | ln2
  deriving DecidableEq, Repr

/-- Operators from a number to a number. -/
inductive MathFunction where
  | log10 | ln | log2 | sin | cos | tan | asin | acos | atan | ceil | floor | round | abs
  deriving DecidableEq, Repr

/-- The comparisons by order. -/
inductive Order where
  | less | greater | atMost | atLeast
  deriving DecidableEq, Repr

/-- The kinds that can be asserted of an argument. -/
inductive AssertedKind where
  | string | number | boolean | object
  deriving DecidableEq, Repr

/-- An operator of the language. -/
inductive Operator where
  | constant (c : Constant)
  | typeOf
  | assertion (kind : AssertedKind)
  | toText | toNumber | toBoolean
  | toChannels | toColor | rgb | rgba
  | get | has | item | length | contains
  | properties | geometryType | id | zoom
  | sum | product | minus | divide | remainder | power
  | math (f : MathFunction)
  | least | greatest
  | equal | unequal
  | order (o : Order)
  | not | and | or
  | upper | lower | concat | raise
  deriving DecidableEq, Repr

/-- The type that an assertion asks for. -/
def AssertedKind.type : AssertedKind → Ty
  | .string => .string
  | .number => .number
  | .boolean => .boolean
  | .object => .object

/-- What a result depends on besides the arguments. -/
inductive Dependency where
  | none
  | feature
  | zoom
  deriving DecidableEq, Repr

namespace Operator

/-! ## Symbols -/

/-- The name that expressions write. -/
def symbol : Operator → String
  | .constant .e => "e"
  | .constant .pi => "pi"
  | .constant .ln2 => "ln2"
  | .typeOf => "typeof"
  | .assertion .string => "string"
  | .assertion .number => "number"
  | .assertion .boolean => "boolean"
  | .assertion .object => "object"
  | .toText => "to-string"
  | .toNumber => "to-number"
  | .toBoolean => "to-boolean"
  | .toChannels => "to-rgba"
  | .toColor => "to-color"
  | .rgb => "rgb"
  | .rgba => "rgba"
  | .get => "get"
  | .has => "has"
  | .item => "at"
  | .length => "length"
  | .contains => "contains"
  | .properties => "properties"
  | .geometryType => "geometry-type"
  | .id => "id"
  | .zoom => "zoom"
  | .sum => "+"
  | .product => "*"
  | .minus => "-"
  | .divide => "/"
  | .remainder => "%"
  | .power => "^"
  | .math .log10 => "log10"
  | .math .ln => "ln"
  | .math .log2 => "log2"
  | .math .sin => "sin"
  | .math .cos => "cos"
  | .math .tan => "tan"
  | .math .asin => "asin"
  | .math .acos => "acos"
  | .math .atan => "atan"
  | .math .ceil => "ceil"
  | .math .floor => "floor"
  | .math .round => "round"
  | .math .abs => "abs"
  | .least => "min"
  | .greatest => "max"
  | .equal => "=="
  | .unequal => "!="
  | .order .less => "<"
  | .order .greater => ">"
  | .order .atMost => "<="
  | .order .atLeast => ">="
  | .not => "!"
  | .and => "&&"
  | .or => "||"
  | .upper => "upcase"
  | .lower => "downcase"
  | .concat => "concat"
  | .raise => "error"

/-- Every operator. -/
def all : List Operator :=
  [.constant .e, .constant .pi, .constant .ln2, .typeOf,
    .assertion .string, .assertion .number, .assertion .boolean, .assertion .object,
    .toText, .toNumber, .toBoolean, .toChannels, .toColor, .rgb, .rgba,
    .get, .has, .item, .length, .contains, .properties, .geometryType, .id, .zoom,
    .sum, .product, .minus, .divide, .remainder, .power,
    .math .log10, .math .ln, .math .log2, .math .sin, .math .cos, .math .tan, .math .asin,
    .math .acos, .math .atan, .math .ceil, .math .floor, .math .round, .math .abs,
    .least, .greatest, .equal, .unequal,
    .order .less, .order .greater, .order .atMost, .order .atLeast,
    .not, .and, .or, .upper, .lower, .concat, .raise]

/-- The operator of a symbol. -/
def ofSymbol? (symbol : String) : Option Operator := all.find? (·.symbol == symbol)

theorem symbol_of_ofSymbol? {s : String} {op : Operator} (h : ofSymbol? s = some op) :
    op.symbol = s := by
  have := List.find?_some h
  simpa using this

theorem ofSymbol?_symbol (op : Operator) : ofSymbol? op.symbol = some op := by
  cases op with
  | constant c => cases c <;> decide
  | assertion k => cases k <;> decide
  | math f => cases f <;> decide
  | order o => cases o <;> decide
  | _ => decide

theorem mem_all (op : Operator) : op ∈ all := List.mem_of_find?_eq_some (ofSymbol?_symbol op)

/-! ## Signatures -/

/-- The overloads of a key, looked up in the feature or in an object. -/
def lookups : List Overload := [.exactly [.string], .exactly [.string, .exact .object]]

/-- The overloads of two arguments of one primitive type. -/
def pairs (types : List Ty) : List Overload :=
  types.map fun t => .exactly [.exact t, .exact t]

/-- What an operator takes and yields. -/
def signature : Operator → Signature
  | .constant _ => ⟨.number, [.exactly []]⟩
  | .typeOf => ⟨.string, [.exactly [.value]]⟩
  | .assertion kind => ⟨.exact kind.type, [.variadic .value]⟩
  | .toText => ⟨.string, [.exactly [.value]]⟩
  | .toNumber => ⟨.number, [.variadic .value]⟩
  | .toBoolean => ⟨.boolean, [.exactly [.value]]⟩
  | .toChannels => ⟨.array .number (some 4), [.exactly [.exact .color]]⟩
  | .toColor => ⟨.exact .color, [.variadic .value]⟩
  | .rgb => ⟨.exact .color, [.exactly [.number, .number, .number]]⟩
  | .rgba => ⟨.exact .color, [.exactly [.number, .number, .number, .number]]⟩
  | .get => ⟨.value, lookups⟩
  | .has => ⟨.boolean, lookups⟩
  | .item => ⟨.named "T", [.exactly [.number, .array (.named "T") none]]⟩
  | .length => ⟨.number, [.exactly [.string], .exactly [.array .value none]]⟩
  | .contains => ⟨.boolean, [.exactly [.array .value none, .value]]⟩
  | .properties => ⟨.exact .object, [.exactly []]⟩
  | .geometryType => ⟨.string, [.exactly []]⟩
  | .id => ⟨.value, [.exactly []]⟩
  | .zoom => ⟨.number, [.exactly []]⟩
  | .sum | .product | .least | .greatest => ⟨.number, [.variadic .number]⟩
  | .minus => ⟨.number, [.exactly [.number, .number], .exactly [.number]]⟩
  | .divide | .remainder | .power => ⟨.number, [.exactly [.number, .number]]⟩
  | .math _ => ⟨.number, [.exactly [.number]]⟩
  | .equal | .unequal => ⟨.boolean, pairs [.number, .string, .boolean, .null]⟩
  | .order _ => ⟨.boolean, pairs [.number, .string]⟩
  | .not => ⟨.boolean, [.exactly [.boolean]]⟩
  | .and | .or => ⟨.boolean, [.variadic .boolean]⟩
  | .upper | .lower => ⟨.string, [.exactly [.string]]⟩
  | .concat => ⟨.string, [.variadic .string]⟩
  | .raise => ⟨.exact .error, [.exactly [.string]]⟩

/-- What the result of an operator depends on besides its arguments. -/
def dependency : Operator → Dependency
  | .get | .has | .properties | .geometryType | .id => .feature
  | .zoom => .zoom
  | _ => .none

/-- Whether an operator may leave arguments unevaluated. -/
def isLazy : Operator → Bool
  | .and | .or => true
  | _ => false

end Operator

end MapStyle
