import MapStyle.Text.CaseTable

/-!
# Letter case of texts

`Text.upper` and `Text.lower` map every character to its full upper or lower case. The case of a
letter does not depend on its neighbours, but for the Greek capital sigma: at the end of a word its
lower case is the final form.
-/

namespace MapStyle.Text

/-- The character at a distance from another; the character itself where there is none. -/
def shifted (ranges : List CaseRange) (c : Char) : Char :=
  match ranges.find? (·.contains c.toNat) with
  | some r => Char.ofNat (c.toNat + r.distance).toNat
  | none => c

/-- The upper case of a character. -/
def upperChar (c : Char) : List Char :=
  match upperExpansions.lookup c.toNat with
  | some codes => codes.map Char.ofNat
  | none => [shifted upperRanges c]

/-- The lower case of a character outside of any context. A capital I with a dot keeps the dot. -/
def lowerChar (c : Char) : List Char :=
  if c = '\u0130' then ['i', '\u0307'] else [shifted lowerRanges c]

/-- Whether a code point lies in one of the ranges. -/
def inRanges (ranges : List (Nat × Nat)) (c : Char) : Bool :=
  ranges.any fun (first, last) => decide (first ≤ c.toNat ∧ c.toNat ≤ last)

/-- Whether the first character that is not ignorable is a letter with a case. -/
def meetsCased : List Char → Bool
  | [] => false
  | c :: rest => if inRanges ignorableRanges c then meetsCased rest else inRanges casedRanges c

/-- The upper case of a text. -/
def upper (text : List Char) : List Char := text.flatMap upperChar

/-- The lower case of a text whose characters before, last first, are `before`. A capital sigma is
final when a letter comes before it and none after it. -/
def lowerAfter (before : List Char) : List Char → List Char
  | [] => []
  | c :: rest =>
    let here :=
      if c = 'Σ' then
        if meetsCased before && !meetsCased rest then ['ς'] else ['σ']
      else lowerChar c
    here ++ lowerAfter (c :: before) rest

/-- The lower case of a text. -/
def lower (text : List Char) : List Char := lowerAfter [] text

/-- The lower case of the letters A to Z; other characters are kept. -/
def lowerBasic (text : List Char) : List Char := text.map Char.toLower

end MapStyle.Text
