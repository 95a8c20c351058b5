/-!
# Text — sets of characters as ranges

A property of characters is a list of closed ranges of code points. The
tables of the sibling modules hold what lies above ASCII; ASCII itself is
decided by a comparison before any table is consulted.
-/

namespace MixedMarkup

namespace Text

/-- Whether the code point of `c` lies in one of the closed ranges. -/
def inRanges (ranges : List (Nat × Nat)) (c : Char) : Bool :=
  ranges.any fun r => r.1 ≤ c.toNat && c.toNat ≤ r.2

/-- Whether `c` is an ASCII character. -/
def isAscii (c : Char) : Bool := c.toNat < 0x80

end Text

end MixedMarkup
