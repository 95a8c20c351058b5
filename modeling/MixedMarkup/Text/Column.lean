import MixedMarkup.Text.Blank
/-!
# Text — visual columns

The column of a place is the width of the text before it, one per
character, with a tab running to the next tab stop.
-/

namespace MixedMarkup

namespace Text

/-- Width of a tab stop unless the caller chooses another. -/
def defaultTabSize : Nat := 4

/-- The column after one more character; a tab stop of width zero makes a tab an ordinary one. -/
def columnAfter (tabSize column : Nat) (c : Char) : Nat :=
  if c == '\t' && 0 < tabSize then column + tabSize - column % tabSize else column + 1

/-- The width of a text that starts at column zero. -/
def columnWidth (tabSize : Nat) (text : List Char) : Nat :=
  text.foldl (columnAfter tabSize) 0

/-- The width of the leading blanks of a text. -/
def leadingWidth (tabSize : Nat) (text : List Char) : Nat :=
  columnWidth tabSize (text.takeWhile isBlank)

end Text

end MixedMarkup
