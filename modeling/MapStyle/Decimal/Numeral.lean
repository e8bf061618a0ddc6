/-!
# Decimal numerals

A `Numeral` is a number as it is written in decimal: a sign, a whole number of digits and a power
of ten, or one of the words for a number that has no digits. `Numeral.render` writes one under a
`Layout`; the library has two layouts, `Layout.plain` and `Layout.json`.

A number may lie halfway between two shortest decimals. Which of the two stands for it is a choice
of the layout too, its `Tie`.
-/

namespace MapStyle

/-- A number in decimal notation. `finite negative digits exponent` is
`± digits · 10 ^ exponent`; the sign is kept for zero too. -/
inductive Numeral where
  | nan
  | infinite (negative : Bool)
  | finite (negative : Bool) (digits : Nat) (exponent : Int)
  deriving DecidableEq, Repr, Inhabited

namespace Numeral

/-- Which of two equally near decimals with neighbouring digits is taken. -/
inductive Tie where
  /-- The one with even digits. -/
  | toEven
  /-- The one of larger magnitude. -/
  | away
  deriving DecidableEq, Repr, Inhabited

/-- Whether a number halfway between the digits `d` and `d + 1` is written with `d + 1`. -/
def Tie.takesUpper : Tie → Nat → Bool
  | .toEven, d => d % 2 = 1
  | .away, _ => true

/-- The choices that a text form of numbers makes. -/
structure Layout where
  /-- Which decimal stands for a number halfway between two. -/
  tie : Tie
  /-- The word for a number that is not a number. -/
  nan : String
  /-- The word for an infinity, by whether it is negative. -/
  infinite : Bool → String
  /-- The text of zero, by whether it is negative. -/
  zero : Bool → String
  /-- Whether a whole number in positional notation ends in `.0`. -/
  wholePoint : Bool
  /-- Whether a number whose first digit stands for `10 ^ k` is written without an exponent. -/
  positional : Int → Bool

/-- The plain layout: every number is written out, with no exponent and no sign on zero. A tie goes
away from zero. -/
def Layout.plain : Layout where
  tie := .away
  nan := "NaN"
  infinite negative := if negative then "-Infinity" else "Infinity"
  zero _ := "0"
  wholePoint := false
  positional _ := true

/-- The layout of numbers that carry a fraction or an exponent in JSON: positional from `10 ^ -5`
to `10 ^ 15`, otherwise with a signed exponent. A tie goes to the even digits. JSON has no word for
a number without digits. -/
def Layout.json : Layout where
  tie := .toEven
  nan := "null"
  infinite _ := "null"
  zero negative := if negative then "-0.0" else "0.0"
  wholePoint := true
  positional k := decide (-5 ≤ k ∧ k ≤ 15)

/-- The digits `ds`, scaled by `10 ^ exponent`, with a point where it falls. -/
def positional (wholePoint : Bool) (ds : List Char) (exponent : Int) : List Char :=
  match exponent with
  | .ofNat zeros => ds ++ List.replicate zeros '0' ++ if wholePoint then ['.', '0'] else []
  | .negSucc n =>
    let places := n + 1
    if places < ds.length then
      ds.take (ds.length - places) ++ '.' :: ds.drop (ds.length - places)
    else
      '0' :: '.' :: List.replicate (places - ds.length) '0' ++ ds

/-- The digits `ds` with a point after the first, then the power of ten of the first digit. -/
def scientific (ds : List Char) (leading : Int) : List Char :=
  let mantissa := match ds with
    | [] => []
    | [d] => [d]
    | d :: rest => d :: '.' :: rest
  mantissa ++ 'e' :: (if leading < 0 then '-' else '+') :: Nat.toDigits 10 leading.natAbs

/-- The text of a numeral. -/
def render (layout : Layout) : Numeral → String
  | .nan => layout.nan
  | .infinite negative => layout.infinite negative
  | .finite negative 0 _ => layout.zero negative
  | .finite negative digits exponent =>
    let ds := Nat.toDigits 10 digits
    let leading := exponent + ds.length - 1
    let body := if layout.positional leading then positional layout.wholePoint ds exponent
      else scientific ds leading
    String.ofList (if negative then '-' :: body else body)

end Numeral

end MapStyle
