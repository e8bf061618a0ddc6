import MapStyle.Scalar
import MapStyle.Binary64.Shortest

/-!
# Doubles as scalars

The numbers that programs run on. Arithmetic and comparison are the machine's, rounding to whole
numbers and the remainder are exact, and a decimal is read as the nearest double.
-/

namespace MapStyle

instance : Scalar Float where
  less a b := decide (a < b)
  atMost a b := decide (a ≤ b)
  isFinite := Float.isFinite
  infinity := 1 / 0
  ofInt := Float.ofInt
  ofDecimal := Binary64.ofDecimal
  truncate := Binary64.truncate
  toNumeral := Binary64.toNumeral
  abs := Float.abs
  floor := Binary64.floor
  ceil := Binary64.ceil
  round := Binary64.round
  remainder := Binary64.remainder
  power := Float.pow
  ln := Float.log
  log2 := Float.log2
  log10 := Float.log10
  sin := Float.sin
  cos := Float.cos
  tan := Float.tan
  asin := Float.asin
  acos := Float.acos
  atan := Float.atan
  e := 2.718281828459045
  pi := 3.141592653589793
  ln2 := 0.6931471805599453

end MapStyle
