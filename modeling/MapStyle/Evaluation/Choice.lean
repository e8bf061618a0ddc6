import MapStyle.Operator.Apply

/-!
# Choosing what to evaluate

The forms that evaluate some of their parts and not others: `coalesce` takes the first value that is
not null, `firstTrue` the output of the first condition that holds, `byLabel` the output whose
labels hold the input. They are written over any monad in which an evaluation can fail.
-/

namespace MapStyle

variable {N : Type} [Scalar N] {m : Type → Type} [Monad m] [MonadExceptOf (Failure N) m]

/-- The first value that is not null. A failure counts as null, unless nothing is left to try. -/
def coalesce : List (m (Value N)) → m (Value N)
  | [] => pure .null
  | [last] => last
  | first :: second :: rest => do
    let v ← tryCatchThe (Failure N) first fun _ => pure .null
    if v.isNull then coalesce (second :: rest) else pure v

/-- The output of the first condition that holds. -/
def firstTrue : List (m (Value N) × m (Value N)) → m (Value N) → m (Value N)
  | [], otherwise => otherwise
  | (test, output) :: rest, otherwise => do
    if ← Operator.report (Operand.boolean (← test)) then output else firstTrue rest otherwise

/-- What an input is compared with. -/
inductive Label (N : Type) where
  | number (x : N)
  | string (s : String)

namespace Label

/-- Labels are equal by kind and content. -/
instance : BEq (Label N) where
  beq
    | .number a, .number b => a == b
    | .string a, .string b => a == b
    | _, _ => false

def type : Label N → Ty
  | .number _ => .number
  | .string _ => .string

/-- Whether a value equals the label in kind and content. -/
def holds (label : Label N) (v : Value N) : Bool :=
  match label, v with
  | .number x, .number y => x == y
  | .string s, .string t => s == t
  | _, _ => false

def toJson : Label N → Json N
  | .number x => Json.ofNumber x
  | .string s => .string s

end Label

/-- The output of the first labels that hold a value. -/
def byLabel (v : Value N) : List (List (Label N) × m (Value N)) → m (Value N) → m (Value N)
  | [], otherwise => otherwise
  | (labels, output) :: rest, otherwise =>
    if labels.any (·.holds v) then output else byLabel v rest otherwise

end MapStyle
