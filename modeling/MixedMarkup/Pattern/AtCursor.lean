import MixedMarkup.Cursor
import MixedMarkup.Pattern.Expr
/-!
# Patterns — at the cursor

A pattern is matched against the text ahead of a cursor, which it sees as
a text of its own: what stands before the cursor plays no part. Only a
match that starts at the cursor counts.
-/

namespace MixedMarkup

/-- Read the preferred match of a pattern at the cursor. -/
def Cursor.readPattern? (p : Pattern) (c : Cursor) : Option (Pattern.Found × Cursor) :=
  (p.matchStart? c.rest).map fun found => (found, c.read found.whole.length)

end MixedMarkup
