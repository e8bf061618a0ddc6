import MapStyle.Failure

/-!
# Blending outputs

`blend` moves from one number, color or array of numbers to another by a factor: zero gives the
first, one the second.
-/

namespace MapStyle.Curve

variable {N : Type} [Scalar N]

/-- The number a share `t` of the way between two numbers. -/
def blendNumber (lower upper t : N) : N := lower * (Scalar.ofInt 1 - t) + upper * t

/-- The color a share `t` of the way between two colors, channel by channel. -/
def blendColor (lower upper : Color N) (t : N) : Color N where
  red := blendNumber lower.red upper.red t
  green := blendNumber lower.green upper.green t
  blue := blendNumber lower.blue upper.blue t
  alpha := blendNumber lower.alpha upper.alpha t

/-- The items a share `t` of the way between the items of two arrays, pair by pair. -/
def blendItems (t : N) : List (Value N) → List (Value N) → Outcome N (List (Value N))
  | .number a :: lower, .number b :: upper => do
    let rest ← blendItems t lower upper
    return .number (blendNumber a b t) :: rest
  | a :: _, b :: _ => throw (.notBlendable a b)
  | _, _ => return []

/-- The array a share `t` of the way between two arrays of one length. -/
def blendArray (lower upper : List (Value N)) (t : N) : Outcome N (List (Value N)) :=
  if lower.length = upper.length then blendItems t lower upper
  else throw (.blendLengths lower.length upper.length)

/-- The kinds of outputs that a curve can blend, and `discrete` for those it can only choose. -/
inductive OutputKind where
  | number
  | color
  | array
  | discrete
  deriving DecidableEq, Repr

/-- How outputs of a type are blended. -/
def OutputKind.ofType : Ty → OutputKind
  | .number => .number
  | .color => .color
  | .array .number _ => .array
  | _ => .discrete

/-- The output a share `t` of the way between two outputs. -/
def blend (kind : OutputKind) (lower upper : Value N) (t : N) : Outcome N (Value N) :=
  match kind, lower, upper with
  | .number, .number a, .number b => return .number (blendNumber a b t)
  | .color, .color a, .color b => return .color (blendColor a b t)
  | .array, .array a, .array b => return .array (← blendArray a b t)
  | _, a, b => throw (.notBlendable a b)

end MapStyle.Curve
