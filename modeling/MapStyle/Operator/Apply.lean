import MapStyle.Feature
import MapStyle.Operator.Basic
import MapStyle.Operator.Operands
import MapStyle.Text.Case
import MapStyle.Value.Access
import MapStyle.Value.Assertion

/-!
# Applying operators

`Operator.apply` is the value of an operator for operands that are already evaluated.
`Operator.run` evaluates the operands itself: from the left, all of them, except that `&&` stops at
the first false operand and `||` at the first true one. It is written over any monad in which an
evaluation can fail, so that which operands are evaluated can be observed.
-/

namespace MapStyle

variable {N : Type} [Scalar N]

/-- The value of a constant. -/
def Constant.eval : Constant → N
  | .e => Scalar.e
  | .pi => Scalar.pi
  | .ln2 => Scalar.ln2

/-- The value of a function of one number. Rounding goes to the nearest whole number, halves up. -/
def MathFunction.eval : MathFunction → N → N
  | .log10 => Scalar.log10
  | .ln => Scalar.ln
  | .log2 => Scalar.log2
  | .sin => Scalar.sin
  | .cos => Scalar.cos
  | .tan => Scalar.tan
  | .asin => Scalar.asin
  | .acos => Scalar.acos
  | .atan => Scalar.atan
  | .ceil => Scalar.ceil
  | .floor => Scalar.floor
  | .round => fun x => Scalar.floor (x + Scalar.ofInt 1 / Scalar.ofInt 2)
  | .abs => Scalar.abs

namespace Order

/-- Whether two numbers stand in the order; never where one is not a number. -/
def numbers : Order → N → N → Bool
  | .less, a, b => Scalar.less a b
  | .greater, a, b => Scalar.less b a
  | .atMost, a, b => Scalar.atMost a b
  | .atLeast, a, b => Scalar.atMost b a

/-- Whether two strings stand in the order of their code points. -/
def strings : Order → String → String → Bool
  | .less, a, b => decide (a < b)
  | .greater, a, b => decide (b < a)
  | .atMost, a, b => !decide (b < a)
  | .atLeast, a, b => !decide (a < b)

/-- Whether two operands stand in the order. Only numbers and strings have one. -/
def compare (o : Order) (operands : List (Value N)) : Outcome N Bool :=
  match Operand.get? operands 0, Operand.get? operands 1 with
  | some (.number a), some (.number b) => .ok (o.numbers a b)
  | some (.string a), some (.string b) => .ok (o.strings a b)
  | a, b => .error (.incomparable (a.map Value.kindName) (b.map Value.kindName))

end Order

namespace Operator

section Lazy

variable {m : Type → Type} [Monad m] [MonadExceptOf (Failure N) m]

/-- An outcome as an evaluation. -/
def report {α : Type} : Outcome N α → m α
  | .ok a => pure a
  | .error failure => throw failure

/-- Whether all operands are true; nothing after a false one is evaluated. -/
def allTrue : List (m (Value N)) → m Bool
  | [] => pure true
  | operand :: rest => do
    if ← report (Operand.boolean (← operand)) then allTrue rest else pure false

/-- Whether some operand is true; nothing after a true one is evaluated. -/
def someTrue : List (m (Value N)) → m Bool
  | [] => pure false
  | operand :: rest => do
    if ← report (Operand.boolean (← operand)) then pure true else someTrue rest

/-- The values of all operands, from the left. -/
def evalAll : List (m (Value N)) → m (List (Value N))
  | [] => pure []
  | operand :: rest => do
    let v ← operand
    return v :: (← evalAll rest)

end Lazy

/-- The first operand of a type. If none is, the failure names the last. -/
def firstOfType (expected : Ty) : List (Value N) → Outcome N (Value N)
  | [] => .error .noOperand
  | [last] => last.assertType expected none
  | v :: rest => if v.type ≤ expected then .ok v else firstOfType expected rest

/-- The first operand that is a color or spells one. If none does, the failure is that of the
last. -/
def firstColor : List (Value N) → Outcome N (Color N)
  | [] => .error .noOperand
  | v :: rest =>
    let here : Outcome N (Color N) := match v with
      | .color c => .ok c
      | .string s => Color.ofText s
      | other => .error (.notAColor other.text)
    match here, rest with
    | .ok c, _ => .ok c
    | .error failure, [] => .error failure
    | .error _, _ => firstColor rest

/-- The first operand that converts to a number. If none does, the failure names the last. -/
def firstNumber : List (Value N) → Outcome N N
  | [] => Value.toNumber .null
  | [last] => last.toNumber
  | v :: rest => match v.asNumber? with
    | some x => .ok x
    | none => firstNumber rest

/-- The value of an operator for its operands. -/
def apply (op : Operator) (env : Env N) (operands : List (Value N)) : Outcome N (Value N) :=
  match op with
  | .constant c => return .number c.eval
  | .typeOf => return .string (((Operand.get? operands 0).map Value.kindName).getD "Null")
  | .assertion kind => firstOfType kind.type operands
  | .toText => return .string (← ((Operand.get? operands 0).getD .null).toText)
  | .toNumber => return .number (← firstNumber operands)
  | .toBoolean => return .boolean (((Operand.get? operands 0).map Value.isTruthy).getD false)
  | .toChannels => return .array ((← Operand.color operands 0).scaled.map .number)
  | .toColor => return .color (← firstColor operands)
  | .rgb => do
    let r ← Operand.number operands 0
    let g ← Operand.number operands 1
    let b ← Operand.number operands 2
    return .color (← Color.ofChannels r g b none)
  | .rgba => do
    let r ← Operand.number operands 0
    let g ← Operand.number operands 1
    let b ← Operand.number operands 2
    let a ← Operand.number operands 3
    return .color (← Color.ofChannels r g b (some a))
  | .get => do
    let key ← Operand.string operands 0
    match Operand.get? operands 1 with
    | some object => object.atKey key none
    | none => Value.property env.feature.properties key
  | .has => do
    let key ← Operand.string operands 0
    match Operand.get? operands 1 with
    | some object => return .boolean (← object.hasKey key none)
    | none => return .boolean (env.feature.properties.lookup key).isSome
  | .item => do
    let index ← Operand.number operands 0
    Value.itemAt index (← Operand.items operands 1)
  | .length => match Operand.get? operands 0 with
    | some (.string s) => return .number (Scalar.ofInt s.length)
    | some (.array items) => return .number (Scalar.ofInt items.length)
    | other => .error (.noLength (other.map Value.kindName))
  | .contains => match Operand.get? operands 0, Operand.get? operands 1 with
    | some (.array items), some needle => return .boolean (← Value.contains items needle)
    | other, _ => .error (.operandKind "array" (other.map Value.kindName))
  | .properties => return .object env.feature.properties
  | .geometryType => return .string env.feature.geometry.name
  | .id => return env.feature.id
  | .zoom => return .number (← env.readZoom)
  | .sum => return .number (Scalar.sum (← Operand.numbers operands))
  | .product => return .number (Scalar.product (← Operand.numbers operands))
  | .minus =>
    if operands.length = 1 then return .number (-(← Operand.number operands 0))
    else return .number ((← Operand.number operands 0) - (← Operand.number operands 1))
  | .divide => return .number ((← Operand.number operands 0) / (← Operand.number operands 1))
  | .remainder =>
    return .number (Scalar.remainder (← Operand.number operands 0) (← Operand.number operands 1))
  | .power =>
    return .number (Scalar.power (← Operand.number operands 0) (← Operand.number operands 1))
  | .math f => return .number (f.eval (← Operand.number operands 0))
  | .least => return .number (Scalar.least (← Operand.numbers operands))
  | .greatest => return .number (Scalar.greatest (← Operand.numbers operands))
  | .equal => return .boolean (Operand.get? operands 0 == Operand.get? operands 1)
  | .unequal => return .boolean (Operand.get? operands 0 != Operand.get? operands 1)
  | .order o => return .boolean (← o.compare operands)
  | .not => return .boolean !(← Operand.boolean ((Operand.get? operands 0).getD .null))
  | .and => return .boolean (← allTrue (operands.map .ok))
  | .or => return .boolean (← someTrue (operands.map .ok))
  | .upper => return .string (String.ofList (Text.upper (← Operand.string operands 0).toList))
  | .lower => return .string (String.ofList (Text.lower (← Operand.string operands 0).toList))
  | .concat => return .string (String.join (← Operand.strings operands))
  | .raise => do throw (.raised (← Operand.string operands 0))

/-- Evaluates operands as far as the operator asks for them, and applies it. -/
def run {m : Type → Type} [Monad m] [MonadExceptOf (Failure N) m] (op : Operator)
    (env : Env N) (operands : List (m (Value N))) : m (Value N) :=
  match op with
  | .and => return .boolean (← allTrue operands)
  | .or => return .boolean (← someTrue operands)
  | op => do report (op.apply env (← evalAll operands))

end Operator

end MapStyle
