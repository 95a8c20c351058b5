import MixedMarkup.Cursor
/-!
# Scans

A scan looks for the end of a construct in the text ahead. It tells how
many characters the construct takes on this line, and whether its end was
among them; a construct whose end was not found takes the whole line.
-/

namespace MixedMarkup

/-- How many characters at the start of a text satisfy `p`. -/
def runLength (p : Char → Bool) (text : List Char) : Nat := (text.takeWhile p).length

/-- The outcome of looking for an end in a text. -/
structure Scan where
  /-- How many characters belong to the construct. -/
  width : Nat
  /-- Whether the end was found. -/
  closed : Bool
  deriving DecidableEq

namespace Scan

/-- The scan of a text with one more character in front. -/
def after (s : Scan) : Scan := { s with width := s.width + 1 }

/-- Scan through the first occurrence of a mark. -/
def through (mark : List Char) : List Char → Scan
  | [] => ⟨0, false⟩
  | c :: cs =>
    if mark.isPrefixOf (c :: cs) then ⟨mark.length, true⟩ else (through mark cs).after

/-- Scan through the first quote that no backslash escapes, where `escaped` tells whether the
first character is escaped by one before it. -/
def quoted (quote : Char) (escaped : Bool) : List Char → Scan
  | [] => ⟨0, false⟩
  | c :: cs =>
    if c == quote && !escaped then ⟨1, true⟩
    else (quoted quote (!escaped && c == '\\') cs).after

end Scan

/-- Read a string after its quote: through the quote that ends it, or to the end of the line. -/
def Cursor.readString (quote : Char) (c : Cursor) : Cursor :=
  c.read (Scan.quoted quote false c.rest).width

end MixedMarkup
