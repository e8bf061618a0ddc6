/-!
# Binary64 numbers

`Binary64.ofFloat` decodes a double into its sign, significand and exponent. Rounding to whole
numbers and the remainder are defined on the decoded form, in integers, and so are exact.

* `ofDecimal` is the double nearest to a decimal.
* `wholeBy` rounds to a whole number under a rule for the magnitude.
* `remainder` is the remainder of truncated division.
-/

namespace MapStyle

/-- A decoded double. `finite negative significand exponent` is
`± significand · 2 ^ exponent`; the sign is kept for zero too. -/
inductive Binary64 where
  | nan
  | infinite (negative : Bool)
  | finite (negative : Bool) (significand : Nat) (exponent : Int)
  deriving DecidableEq, Repr

namespace Binary64

/-- The exponent of the least significant bit of a subnormal number. -/
def minExponent : Int := -1074

/-- The fields of a double: one sign bit, eleven exponent bits, fifty-two fraction bits. -/
def ofFloat (x : Float) : Binary64 :=
  let bits : Nat := x.toBits.toNat
  let negative := decide (Nat.pow 2 63 ≤ bits)
  let biased : Nat := bits / Nat.pow 2 52 % 2048
  let fraction : Nat := bits % Nat.pow 2 52
  if biased = 2047 then
    if fraction = 0 then .infinite negative else .nan
  else if biased = 0 then .finite negative fraction minExponent
  else .finite negative (Nat.pow 2 52 + fraction) (minExponent + (biased : Int) - 1)

/-- The double `± n · 2 ^ exponent`, exact when it has one. A negative power of two is a power of
five over a power of ten. -/
def compose (negative : Bool) (n : Nat) (exponent : Int) : Float :=
  let magnitude := match exponent with
    | .ofNat k => Float.ofNat (n * Nat.pow 2 k)
    | .negSucc k => Float.ofScientific (n * Nat.pow 5 (k + 1)) true (k + 1)
  if negative then -magnitude else magnitude

/-- The double nearest to `digits · 10 ^ exponent`. A decimal that is at least `10 ^ 310` is beyond
all doubles, and one below `2 ^ -1076` is nearest to zero: for these no power of ten is computed. The
latter is told by `8 < 10`, which puts the decimal below two to the power of the length of the digits
in bits and three times a negative exponent. -/
def ofDecimal (digits : Nat) (exponent : Int) : Float :=
  if digits = 0 then 0
  else if 310 ≤ exponent then 1 / 0
  else if (digits.log2 : Int) + 1 + 3 * exponent ≤ -1076 then 0
  else Float.ofScientific digits (decide (exponent < 0)) exponent.natAbs

/-- The integer part of a double, toward zero; zero where there is none. -/
def truncate (x : Float) : Int :=
  match ofFloat x with
  | .finite negative m exponent =>
    let magnitude := match exponent with
      | .ofNat k => m * Nat.pow 2 k
      | .negSucc k => m / Nat.pow 2 (k + 1)
    if negative then -(magnitude : Int) else magnitude
  | _ => 0

/-- Rounds to a whole number. The magnitude `q + r / d` with `r < d` goes up to `q + 1` when
`up negative r d` holds, else down to `q`; the sign stays, on a zero too. -/
def wholeBy (up : Bool → Nat → Nat → Bool) (x : Float) : Float :=
  match ofFloat x with
  | .finite negative m (.negSucc k) =>
    let d := Nat.pow 2 (k + 1)
    let q := m / d
    let magnitude := Float.ofNat (if up negative (m % d) d then q + 1 else q)
    if negative then -magnitude else magnitude
  | _ => x

/-- The greatest whole number that is not above. -/
def floor : Float → Float := wholeBy fun negative r _ => negative && r != 0

/-- The least whole number that is not below. -/
def ceil : Float → Float := wholeBy fun negative r _ => !negative && r != 0

/-- The nearest whole number, halves away from zero. -/
def round : Float → Float := wholeBy fun _ r d => decide (d ≤ 2 * r)

/-- The remainder of truncated division, with the sign of the dividend. -/
def remainder (x y : Float) : Float :=
  match ofFloat x, ofFloat y with
  | .finite negative m e, .finite _ n f =>
    if n = 0 then 0 / 0
    else
      let common := min e f
      let dividend := m * Nat.pow 2 (e - common).toNat
      let divisor := n * Nat.pow 2 (f - common).toNat
      compose negative (dividend % divisor) common
  | .finite .., .infinite _ => x
  | _, _ => 0 / 0

end Binary64

end MapStyle
