/-!
# Text — readers

A reader takes something from the start of a text and leaves the rest, or
fails. Readers of nested forms recurse on a bound that their caller
computes from the length of the text.
-/

namespace MixedMarkup

namespace Text

/-- A reader of something at the start of a text. -/
abbrev Reader := StateT (List Char) Option

namespace Reader

/-- Read any character. -/
def next : Reader Char := fun text =>
  match text with
  | [] => none
  | c :: rest => some (c, rest)

/-- The text ahead, which stays unread. -/
def ahead : Reader (List Char) := fun text => some (text, text)

/-- Read a literal if it comes next. -/
def accept (literal : String) : Reader Bool := fun text =>
  if literal.toList.isPrefixOf text then some (true, text.drop literal.length)
  else some (false, text)

/-- Read a literal. -/
def expect (literal : String) : Reader Unit := do
  unless ← accept literal do failure

/-- Read as many characters satisfying `p` as there are. -/
def many (p : Char → Bool) : Reader (List Char) := fun text =>
  some (text.takeWhile p, text.dropWhile p)

/-- Read as many characters satisfying `p` as there are, at least one. -/
def many1 (p : Char → Bool) : Reader (List Char) := do
  let taken ← many p
  if taken.isEmpty then failure else return taken

/-- What a reader makes of a whole text. -/
def readAll? {α : Type} (r : Reader α) (text : List Char) : Option α :=
  match r.run text with
  | some (a, []) => some a
  | _ => none

end Reader

end Text

end MixedMarkup
