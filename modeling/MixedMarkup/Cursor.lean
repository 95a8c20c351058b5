import MixedMarkup.Text.Bytes
import MixedMarkup.Text.Column
/-!
# The line cursor

A cursor stands on one line and divides it in three: the text before the
current token, the token read so far, and the rest. Tokenizers move
characters from the rest to the token; the start of the token is moved by
`beginToken` alone, and only `unread` gives characters back. Offsets in
and out of the cursor are byte offsets, and every cut falls between two
characters because the three parts are lists of characters.
-/

namespace MixedMarkup

open Text

/-- A place on a line, with the token being read there. -/
structure Cursor where
  /-- The text before the token. -/
  before : List Char
  /-- The text read since the token started. -/
  token : List Char
  /-- The text not yet read. -/
  rest : List Char
  /-- The width of a tab stop when columns are computed. -/
  tabSize : Nat
  deriving DecidableEq

namespace Cursor

/-- The cursor at the start of a line, with tab stops of the given width. -/
def withTabSize (tabSize : Nat) (line : List Char) : Cursor := ⟨[], [], line, tabSize⟩

/-- The cursor at the start of a line. -/
def ofLine (line : List Char) : Cursor := withTabSize defaultTabSize line

/-- The whole line, wherever the cursor stands. -/
def line (c : Cursor) : List Char := c.before ++ (c.token ++ c.rest)

/-- The byte offset of the token. -/
def start (c : Cursor) : Nat := byteSize c.before

/-- The byte offset of the cursor. -/
def pos (c : Cursor) : Nat := byteSize c.before + byteSize c.token

/-- Whether the cursor stands at the end of the line. -/
def atEnd (c : Cursor) : Bool := c.rest.isEmpty

/-- Whether the cursor stands at the start of the line. -/
def atStart (c : Cursor) : Bool := c.before.isEmpty && c.token.isEmpty

/-- The column of the token. -/
def column (c : Cursor) : Nat := columnWidth c.tabSize c.before

/-- The width of the leading blanks of the line. -/
def indentation (c : Cursor) : Nat := leadingWidth c.tabSize c.line

/-! ## Moves -/

/-- Start a new token at the cursor. -/
def beginToken (c : Cursor) : Cursor := { c with before := c.before ++ c.token, token := [] }

/-- Read the next `n` characters, or what there is of them. -/
def read (n : Nat) (c : Cursor) : Cursor :=
  { c with token := c.token ++ c.rest.take n, rest := c.rest.drop n }

/-- Read to the end of the line. -/
def readAll (c : Cursor) : Cursor := c.read c.rest.length

/-- Read the next `n` bytes, stopping at the end of the line. -/
def readBytes (n : Nat) (c : Cursor) : Cursor := c.read (splitBytes n c.rest).1.length

/-- Give back the last `n` bytes of the token. -/
def unread (n : Nat) (c : Cursor) : Cursor :=
  let (kept, dropped) := splitBytes (byteSize c.token - n) c.token
  { c with token := kept, rest := dropped ++ c.rest }

/-! ## Reading under a condition

Each of these gives the moved cursor when there was something to read,
and `none` when the cursor has to stay. -/

/-- The next character. -/
def peek? (c : Cursor) : Option Char := c.rest.head?

/-- Read the next character. -/
def next? (c : Cursor) : Option (Char × Cursor) := c.peek?.map (·, c.read 1)

/-- Read the next character if it satisfies `p`. -/
def readIf? (p : Char → Bool) (c : Cursor) : Option (Char × Cursor) :=
  match c.peek? with
  | some ch => if p ch then some (ch, c.read 1) else none
  | none => none

/-- Read the next character if it is `ch`. -/
def readChar? (ch : Char) (c : Cursor) : Option Cursor := (c.readIf? (· == ch)).map (·.2)

/-- Read as many characters satisfying `p` as there are. -/
def skip (p : Char → Bool) (c : Cursor) : Cursor := c.read (c.rest.takeWhile p).length

/-- Read as many characters satisfying `p` as there are, at least one. -/
def readWhile? (p : Char → Bool) (c : Cursor) : Option Cursor :=
  match c.readIf? p with
  | some _ => some (c.skip p)
  | none => none

/-- Read blanks, at least one. -/
def readBlanks? (c : Cursor) : Option Cursor := c.readWhile? isBlank

/-- Read up to the next occurrence of `ch`, which stays unread. -/
def readTo? (ch : Char) (c : Cursor) : Option Cursor :=
  if c.rest.contains ch then some (c.skip (· != ch)) else none

/-- Read a literal. -/
def readLiteral? (literal : List Char) (c : Cursor) : Option Cursor :=
  if literal.isPrefixOf c.rest then some (c.read literal.length) else none

/-- Read a literal, in any spelling that differs in the case of ASCII letters only. -/
def readLiteralAnyCase? (literal : List Char) (c : Cursor) : Option Cursor :=
  if (literal.map Char.toLower).isPrefixOf (c.rest.map Char.toLower) then
    some (c.read literal.length)
  else none

/-! ## The line stays the same

Whatever moves the cursor divides the same line anew. -/

@[simp] theorem line_withTabSize (tabSize : Nat) (line : List Char) :
    (withTabSize tabSize line).line = line := rfl

@[simp] theorem line_beginToken (c : Cursor) : c.beginToken.line = c.line := by
  simp [line, beginToken]

@[simp] theorem line_read (n : Nat) (c : Cursor) : (c.read n).line = c.line := by
  simp [line, read]

@[simp] theorem line_unread (n : Nat) (c : Cursor) : (c.unread n).line = c.line := by
  have h := splitBytes_append (byteSize c.token - n) c.token
  simp only [line, unread]
  rw [← List.append_assoc (splitBytes _ _).1, h]

end Cursor

end MixedMarkup
