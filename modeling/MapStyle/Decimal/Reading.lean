import MapStyle.Decimal.Numeral
import MapStyle.Text.Case

/-!
# Reading decimal numerals

`Numeral.read?` accepts an optional sign followed by one of the words `inf`, `infinity` and `nan`
in any letter case, or by digits with at most one point, of which at least one digit stands before
or after the point, and an optional exponent. Nothing else is a numeral: no blank, no separator.
-/

namespace MapStyle.Numeral

/-- The value of a string of decimal digits, most significant first. -/
def digitsValue (ds : List Char) : Nat :=
  ds.foldl (fun n c => 10 * n + (c.toNat - '0'.toNat)) 0

/-- Splits an optional sign off the front; true is minus. -/
def readSign : List Char → Bool × List Char
  | '+' :: rest => (false, rest)
  | '-' :: rest => (true, rest)
  | text => (false, text)

/-- The exponent part: nothing at all, or `e`, an optional sign and at least one digit. -/
def readExponent? : List Char → Option Int
  | [] => some 0
  | c :: rest =>
    if c = 'e' ∨ c = 'E' then
      let (negative, ds) := readSign rest
      if ds.isEmpty || !ds.all Char.isDigit then none
      else some (if negative then -(digitsValue ds : Int) else digitsValue ds)
    else none

/-- An unsigned decimal: its digits with the point removed, and the power of ten to scale by. -/
def readDecimal? (text : List Char) : Option (Nat × Int) :=
  let (whole, rest) := text.span Char.isDigit
  let (fraction, rest) := match rest with
    | '.' :: rest => rest.span Char.isDigit
    | rest => ([], rest)
  if whole.isEmpty && fraction.isEmpty then none
  else (readExponent? rest).map fun exponent =>
    (digitsValue (whole ++ fraction), exponent - fraction.length)

/-- The numeral that `text` spells, if it spells one. -/
def read? (text : List Char) : Option Numeral :=
  let (negative, body) := readSign text
  let word := String.ofList (Text.lowerBasic body)
  if word = "inf" ∨ word = "infinity" then some (.infinite negative)
  else if word = "nan" then some .nan
  else (readDecimal? body).map fun (digits, exponent) => .finite negative digits exponent

end MapStyle.Numeral
