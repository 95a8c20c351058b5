import MixedMarkup.Text.Blank
import MixedMarkup.Text.CaseFolding
import MixedMarkup.Text.Numeric
import MixedMarkup.Text.Word
/-!
# Patterns — sets of characters

The sets that a pattern can name. Ignoring case, a set is closed under
case before any complement is taken, so a complement leaves out every
spelling of what it excludes.
-/

namespace MixedMarkup

namespace Pattern

open Text

/-- A set of characters. -/
inductive CharSet where
  | none
  | char (c : Char)
  | range (first last : Char)
  | word
  | digit
  | blank
  | compl (s : CharSet)
  | union (a b : CharSet)
  deriving DecidableEq

namespace CharSet

/-- All characters but the line feed. -/
def dot : CharSet := .compl (.char '\n')

/-- Whether a set has a character, ignoring case or not. -/
def has (ignoreCase : Bool) : CharSet → Char → Bool
  | none, _ => false
  | char d, c => if ignoreCase then sameFold d c else d == c
  | range first last, c =>
    (if ignoreCase then caseVariants c else [c]).any fun d => first ≤ d && d ≤ last
  | word, c => isWord c
  | digit, c => isDecimal c
  | blank, c => isBlank c
  | compl s, c => !s.has ignoreCase c
  | union a b, c => a.has ignoreCase c || b.has ignoreCase c

end CharSet

end Pattern

end MixedMarkup
