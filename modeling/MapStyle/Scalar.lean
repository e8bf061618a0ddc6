import MapStyle.Decimal.Numeral

/-!
# Numbers of the language

Every definition of the library that computes with numbers is written over a type `N` of scalars.
`Scalar N` lists what the language asks of them. Running programs use binary64 numbers; a law about
exact arithmetic is a law about the same definitions over another instance.

The order is given by two tests, because numbers need not be comparable: `less` and `atMost` are
both false where an operand is not a number.
-/

namespace MapStyle

/-- The operations of the language's numbers. -/
class Scalar (N : Type) extends Add N, Sub N, Mul N, Div N, Neg N, BEq N where
  /-- Strictly below. -/
  less : N → N → Bool
  /-- Below or equal. -/
  atMost : N → N → Bool
  /-- Neither an infinity nor not a number. -/
  isFinite : N → Bool
  /-- A number above every finite one, where there is one. -/
  infinity : N
  /-- The number nearest to an integer. -/
  ofInt : Int → N
  /-- The number nearest to `digits · 10 ^ exponent`. -/
  ofDecimal : Nat → Int → N
  /-- The integer part, toward zero. -/
  truncate : N → Int
  /-- The nearest of the shortest decimal numerals that read back as the number. -/
  toNumeral : Numeral.Tie → N → Numeral
  /-- The magnitude. -/
  abs : N → N
  /-- The greatest whole number that is not above. -/
  floor : N → N
  /-- The least whole number that is not below. -/
  ceil : N → N
  /-- The nearest whole number, halves away from zero. -/
  round : N → N
  /-- The remainder of division, with the sign of the dividend. -/
  remainder : N → N → N
  /-- A power. -/
  power : N → N → N
  /-- The natural logarithm. -/
  ln : N → N
  /-- The logarithm to base two. -/
  log2 : N → N
  /-- The logarithm to base ten. -/
  log10 : N → N
  sin : N → N
  cos : N → N
  tan : N → N
  asin : N → N
  acos : N → N
  atan : N → N
  /-- The base of the natural logarithm. -/
  e : N
  /-- Half a turn. -/
  pi : N
  /-- The natural logarithm of two. -/
  ln2 : N

namespace Scalar

variable {N : Type} [Scalar N]

/-- Whether the number is not a number, and so differs from itself. -/
def isNaN (x : N) : Bool := !(x == x)

/-- Whether the number is zero, of either sign. -/
def isZero (x : N) : Bool := x == ofInt 0

/-- Whether the number has no fraction. -/
def isWhole (x : N) : Bool := floor x == x

/-- The largest integer up to which every integer is a number of its own. -/
def maxSafeInteger : Int := 9007199254740991

/-- Whether the magnitude is at most `maxSafeInteger`. -/
def isSafe (x : N) : Bool := atMost (abs x) (ofInt maxSafeInteger)

/-- The integer that the number is, if it is one of magnitude below `2 ^ 53`. -/
def toInt? (x : N) : Option Int :=
  let n := truncate x
  if ofInt n == x && less (abs x) (ofInt (maxSafeInteger + 1)) then some n else none

/-- The number moved into `[lo, hi]`; what is not above `lo` becomes `lo`. -/
def clamp (lo hi x : N) : N :=
  if less lo x then (if less x hi then x else hi) else lo

/-- Whether `lo ≤ x ≤ hi`. -/
def within (lo hi x : N) : Bool := atMost lo x && atMost x hi

/-- The number that a numeral denotes; the word for not a number denotes none. -/
def ofNumeral? : Numeral → Option N
  | .nan => none
  | .infinite negative => some (if negative then -infinity else infinity)
  | .finite negative digits exponent =>
    let magnitude : N := ofDecimal digits exponent
    some (if negative then -magnitude else magnitude)

/-- The text of a number under a layout. -/
def write (layout : Numeral.Layout) (x : N) : String := (toNumeral layout.tie x).render layout

/-- The text of a number, written out in full. -/
def toText (x : N) : String := write .plain x

/-- The least of the numbers that are numbers, the last among equals; infinity if there is none. -/
def least (xs : List N) : N :=
  xs.foldl (fun m x => if atMost x m then x else m) infinity

/-- The greatest of the numbers that are numbers, the last among equals; minus infinity if there
is none. -/
def greatest (xs : List N) : N :=
  xs.foldl (fun m x => if atMost m x then x else m) (-infinity)

/-- The sum from the left. It starts at minus zero, which leaves the sign of a zero sum alone. -/
def sum (xs : List N) : N := xs.foldl (· + ·) (-ofInt 0)

/-- The product from the left. -/
def product (xs : List N) : N := xs.foldl (· * ·) (ofInt 1)

end Scalar

end MapStyle
