import MixedMarkup.Text.Ranges
/-!
# Text — blanks

The characters of the White_Space property. Indentation, the gaps between
tokens and the gaps a closing tag allows are all made of these.
-/

namespace MixedMarkup

namespace Text

/-- Blanks above ASCII. -/
def blankRanges : List (Nat × Nat) := [
  (0x85, 0x85), (0xA0, 0xA0), (0x1680, 0x1680), (0x2000, 0x200A), (0x2028, 0x2029),
  (0x202F, 0x202F), (0x205F, 0x205F), (0x3000, 0x3000)]

/-- Whether `c` has the White_Space property. -/
def isBlank (c : Char) : Bool :=
  if isAscii c then c.toNat == 0x20 || (0x9 ≤ c.toNat && c.toNat ≤ 0xD)
  else inRanges blankRanges c

/-- The text without its leading blanks. -/
def dropBlanks (text : List Char) : List Char := text.dropWhile isBlank

end Text

end MixedMarkup
