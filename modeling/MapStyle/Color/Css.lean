import MapStyle.Color.Basic
import MapStyle.Color.Names
import MapStyle.Decimal.Reading
import MapStyle.Text.Blank

/-!
# Colors in CSS notation

`Color.ofCss?` reads `transparent`, the color names, `#` with three, four, six or eight hexadecimal
digits, `rgb()` and `rgba()` with numbers or percentages, and `hsl()` and `hsla()`. Blanks around
the text, the function name and the arguments do not count, nor does the case of basic letters.
Channels outside of their range are moved to its nearest end.
-/

namespace MapStyle.Color

open Text

variable {N : Type} [Scalar N]

/-! ## Hexadecimal notation -/

/-- The value of a hexadecimal digit. -/
def hexDigit? (c : Char) : Option Nat :=
  if '0' ≤ c ∧ c ≤ '9' then some (c.toNat - '0'.toNat)
  else if 'a' ≤ c ∧ c ≤ 'f' then some (c.toNat - 'a'.toNat + 10)
  else if 'A' ≤ c ∧ c ≤ 'F' then some (c.toNat - 'A'.toNat + 10)
  else none

/-- The color of a list of hexadecimal digits. A channel is two digits, or one that is doubled. -/
def ofHexDigits? : List Nat → Option (Color N)
  | [r, g, b] => some (ofBytes (17 * r) (17 * g) (17 * b) 255)
  | [r, g, b, a] => some (ofBytes (17 * r) (17 * g) (17 * b) (17 * a))
  | [r, r', g, g', b, b'] => some (ofBytes (16 * r + r') (16 * g + g') (16 * b + b') 255)
  | [r, r', g, g', b, b', a, a'] =>
    some (ofBytes (16 * r + r') (16 * g + g') (16 * b + b') (16 * a + a'))
  | _ => none

/-- The color after `#`. -/
def ofHex? (text : List Char) : Option (Color N) :=
  (text.mapM hexDigit?).bind ofHexDigits?

/-! ## Arguments -/

/-- A finite number. -/
def number? (text : List Char) : Option N :=
  ((Numeral.read? text).bind Scalar.ofNumeral?).filter Scalar.isFinite

/-- The text before a final percent sign. -/
def percent? (text : List Char) : Option (List Char) :=
  if text.getLast? = some '%' then some text.dropLast else none

/-- A red, green or blue channel: a number up to 255 or a percentage of it, to the nearest whole
number. -/
def channel? (text : List Char) : Option N := do
  let value ← match percent? text with
    | some digits => (number? digits).map (· / Scalar.ofInt 100 * Scalar.ofInt 255)
    | none => number? text
  return Scalar.clamp (Scalar.ofInt 0) (Scalar.ofInt 255) (Scalar.round value) / Scalar.ofInt 255

/-- An alpha: a number up to one, or a percentage. -/
def alpha? (text : List Char) : Option N := do
  let value ← match percent? text with
    | some digits => (number? digits).map (· / Scalar.ofInt 100)
    | none => number? text
  return Scalar.clamp (Scalar.ofInt 0) (Scalar.ofInt 1) value

/-- A share of one, which has to be written as a percentage. -/
def share? (text : List Char) : Option N := do
  let value ← number? (← percent? text)
  return Scalar.clamp (Scalar.ofInt 0) (Scalar.ofInt 1) (value / Scalar.ofInt 100)

/-! ## Hue, saturation and lightness -/

/-- The hue as a share of the whole turn. -/
def turn (degrees : N) : N :=
  let full : N := Scalar.ofInt 360
  Scalar.remainder (Scalar.remainder degrees full + full) full / full

/-- One channel of a hue `t`, between the extremes `p` and `q`: it rises over a sixth of the turn,
stays, falls over a sixth, and stays. -/
def hueChannel (p q t : N) : N :=
  let num (n : Int) : N := Scalar.ofInt n
  let t := if Scalar.less t (num 0) then t + num 1 else t
  let t := if Scalar.less (num 1) t then t - num 1 else t
  if Scalar.less t (num 1 / num 6) then p + (q - p) * num 6 * t
  else if Scalar.less t (num 1 / num 2) then q
  else if Scalar.less t (num 2 / num 3) then p + (q - p) * (num 2 / num 3 - t) * num 6
  else p

/-- The color of a hue, saturation, lightness and alpha. Red and blue lie a third of the turn to
either side of green. -/
def ofHsl (h s l alpha : N) : Color N :=
  let num (n : Int) : N := Scalar.ofInt n
  if Scalar.isZero s then ⟨l, l, l, alpha⟩
  else
    let q := if Scalar.atMost l (num 1 / num 2) then l * (num 1 + s) else l + s - l * s
    let p := num 2 * l - q
    let third := num 1 / num 3
    ⟨hueChannel p q (h + third), hueChannel p q h, hueChannel p q (h - third), alpha⟩

/-! ## Functional notation -/

def rgb? (red green blue : List Char) (alpha : N) : Option (Color N) := do
  return ⟨← channel? red, ← channel? green, ← channel? blue, alpha⟩

def hsl? (hue saturation lightness : List Char) (alpha : N) : Option (Color N) := do
  let h ← number? hue
  return ofHsl (turn h) (← share? saturation) (← share? lightness) alpha

/-- The color of a function by name and arguments. -/
def call? (name : String) (args : List (List Char)) : Option (Color N) :=
  match name, args with
  | "rgb", [r, g, b] => rgb? r g b (Scalar.ofInt 1)
  | "rgba", [r, g, b, a] => (alpha? a).bind (rgb? r g b)
  | "hsl", [h, s, l] => hsl? h s l (Scalar.ofInt 1)
  | "hsla", [h, s, l, a] => (alpha? a).bind (hsl? h s l)
  | _, _ => none

/-- The parts of a text between separators. -/
def splitAt (separator : Char) : List Char → List (List Char)
  | [] => [[]]
  | c :: rest =>
    if c = separator then [] :: splitAt separator rest
    else match splitAt separator rest with
      | [] => [[c]]
      | part :: parts => (c :: part) :: parts

/-- The color of a function call: a name, and arguments between parentheses that close at the end
of the text. -/
def ofCall? (text : List Char) : Option (Color N) :=
  let (name, rest) := text.span (· != '(')
  match rest with
  | _ :: inside =>
    if inside.getLast? = some ')' then
      call? (String.ofList (trim name)) ((splitAt ',' inside.dropLast).map trim)
    else none
  | [] => none

/-- The color that a text spells in CSS notation. -/
def ofCss? (text : String) : Option (Color N) :=
  let text := lowerBasic (trim text.toList)
  let word := String.ofList text
  if word = "transparent" then some transparent
  else match named? word with
    | some (r, g, b) => some (ofBytes r g b 255)
    | none => match text with
      | '#' :: digits => ofHex? digits
      | _ => ofCall? text

end MapStyle.Color
