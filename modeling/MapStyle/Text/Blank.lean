/-!
# Blank characters

`Text.isBlank` is the Unicode property `White_Space`. `Text.trim` removes blank characters at both
ends: what is left starts and ends with a character that is not blank.
-/

namespace MapStyle.Text

/-- Whether a character is white space. -/
def isBlank (c : Char) : Bool :=
  let n := c.toNat
  decide ((9 ≤ n ∧ n ≤ 13) ∨ n = 0x20 ∨ n = 0x85 ∨ n = 0xA0 ∨ n = 0x1680 ∨ (0x2000 ≤ n ∧ n ≤ 0x200A)
    ∨ n = 0x2028 ∨ n = 0x2029 ∨ n = 0x202F ∨ n = 0x205F ∨ n = 0x3000)

/-- The text without blank characters at its front. -/
def trimLeft (text : List Char) : List Char := text.dropWhile isBlank

/-- The text without blank characters at its ends. -/
def trim (text : List Char) : List Char := (trimLeft (trimLeft text).reverse).reverse

end MapStyle.Text
