import MapStyle.Decimal.Numeral
import MapStyle.Binary64.Basic

/-!
# The shortest decimal of a double

`Binary64.shortest` gives the decimal with the fewest digits among those that read back as the
same double, and of those the nearest to it. Two can be equally near, so it is told by a `Tie` which
of them to take: 2 ^ -25 lies halfway between 2.9802322387695312e-8 and 2.9802322387695313e-8.

The numbers that read back as `m · 2 ^ q` are those between the two midpoints to its neighbours,
midpoints included when `m` is even. The grids `10 ^ p` are scanned from the coarsest that can hold
a digit of the number to the finest that is ever needed, seventeen digits; on each grid only the
two neighbours of the number can hit.

All arithmetic is in natural numbers: a point of the grid and the bounds of the interval are
brought to one denominator.
-/

namespace MapStyle.Binary64

/-- The numbers that read back as one double: from `low / scale` to `high / scale` around
`value / scale`, ends included or not. -/
structure Interval where
  low : Nat
  value : Nat
  high : Nat
  scale : Nat
  closed : Bool

/-- The interval of `m · 2 ^ q`. A power of two has its lower neighbour twice as near, unless it is
the smallest normal number. -/
def interval (m : Nat) (q : Int) : Interval :=
  let gapBelow := if m = Nat.pow 2 52 ∧ minExponent < q then 1 else 2
  let (unit, scale) := match q - 2 with
    | .ofNat k => (Nat.pow 2 k, 1)
    | .negSucc k => (1, Nat.pow 2 (k + 1))
  { low := (4 * m - gapBelow) * unit
    value := 4 * m * unit
    high := (4 * m + 2) * unit
    scale
    closed := m % 2 = 0 }

namespace Interval

/-- Whether `n / d`, given over the denominator `d` of the interval's scaled bounds, reads back. -/
def holds (i : Interval) (n scaleUp : Nat) : Bool :=
  if i.closed then decide (i.low * scaleUp ≤ n ∧ n ≤ i.high * scaleUp)
  else decide (i.low * scaleUp < n ∧ n < i.high * scaleUp)

/-- The point `d · 10 ^ p` of the grid that reads back and is nearest to the value, if any point
of the grid reads back; `tie` decides between two equally near points. -/
def onGrid? (i : Interval) (tie : Numeral.Tie) (p : Int) : Option Nat :=
  let (unit, scaleUp) := match p with
    | .ofNat k => (i.scale * Nat.pow 10 k, 1)
    | .negSucc k => (i.scale, Nat.pow 10 (k + 1))
  let value := i.value * scaleUp
  let d := value / unit
  let below := i.holds (d * unit) scaleUp
  let above := i.holds ((d + 1) * unit) scaleUp
  let distance := value - d * unit
  match below, above with
  | true, true =>
    if unit < 2 * distance ∨ (2 * distance = unit ∧ tie.takesUpper d) then some (d + 1)
    else some d
  | true, false => some d
  | false, true => some (d + 1)
  | false, false => none

end Interval

/-- Removes trailing zeros, at most `fuel` of them. -/
def stripZeros : Nat → Nat → Int → Nat × Int
  | 0, digits, p => (digits, p)
  | fuel + 1, digits, p =>
    if digits % 10 = 0 then stripZeros fuel (digits / 10) (p + 1) else (digits, p)

/-- The first hit on the grids from `10 ^ p` down, `fuel` grids in all. -/
def scan (i : Interval) (tie : Numeral.Tie) : Nat → Int → Nat × Int
  | 0, p => (i.value / i.scale, p)
  | fuel + 1, p =>
    match i.onGrid? tie p with
    | some d => stripZeros 17 d p
    | none => scan i tie fuel (p - 1)

/-- A power of ten that is not below the leading digit's, and at most one above it: the binary
logarithm times `log10 2`, rounded up. -/
def leadingGrid (m : Nat) (q : Int) : Int :=
  ((m.log2 : Int) + 1 + q) * 30103 / 100000 + 1

/-- The nearest of the shortest decimals that read back as `m · 2 ^ q`, for positive `m`: its digits
and exponent. -/
def shortest (tie : Numeral.Tie) (m : Nat) (q : Int) : Nat × Int :=
  scan (interval m q) tie 20 (leadingGrid m q)

/-- The nearest of the shortest numerals that read back as the double. -/
def toNumeral (tie : Numeral.Tie) (x : Float) : Numeral :=
  match ofFloat x with
  | .nan => .nan
  | .infinite negative => .infinite negative
  | .finite negative 0 _ => .finite negative 0 0
  | .finite negative m q =>
    let (digits, exponent) := shortest tie m q
    .finite negative digits exponent

end MapStyle.Binary64
