import MapStyle.Scalar

/-!
# Colors

A color is red, green, blue and alpha, each meant to lie between zero and one, and not multiplied by
alpha. Texts and operators count red, green and blue up to 255.
-/

namespace MapStyle

/-- A color by its channels. -/
structure Color (N : Type) where
  red : N
  green : N
  blue : N
  alpha : N

namespace Color

variable {N : Type}

/-- Colors are equal when their channels are. -/
instance [BEq N] : BEq (Color N) where
  beq a b := a.red == b.red && a.green == b.green && a.blue == b.blue && a.alpha == b.alpha

/-- The channels in order. -/
def channels (c : Color N) : List N := [c.red, c.green, c.blue, c.alpha]

variable [Scalar N]

/-- The channels with red, green and blue counted up to 255. -/
def scaled (c : Color N) : List N :=
  let full : N := Scalar.ofInt 255
  [c.red * full, c.green * full, c.blue * full, c.alpha]

/-- The color of four bytes. -/
def ofBytes (red green blue alpha : Nat) : Color N :=
  let share (n : Nat) : N := Scalar.ofInt n / Scalar.ofInt 255
  ⟨share red, share green, share blue, share alpha⟩

/-- The color that does not show. -/
def transparent : Color N :=
  ⟨Scalar.ofInt 0, Scalar.ofInt 0, Scalar.ofInt 0, Scalar.ofInt 0⟩

/-- Whether every channel lies between zero and one. -/
def inRange (c : Color N) : Bool :=
  c.channels.all (Scalar.within (Scalar.ofInt 0) (Scalar.ofInt 1))

end Color

end MapStyle
