import MixedMarkup.Markup.Element
/-!
# Markup — states

The state of a markup tokenizer has two layers. The zone says which kind
of text the cursor is in, and decides how the next lexeme is read; the
stage says how far the tag being read has come, and decides what the
lexeme means there. Beside them stand the tag being read, the open
elements, and the columns that indentation is computed from.
-/

namespace MixedMarkup

namespace Markup

/-- A construct that is read as one piece up to its terminator. -/
inductive Verbatim where
  | comment
  | cdata
  | instruction
  deriving DecidableEq

/-- The kind of text the cursor is in. -/
inductive Zone where
  | text
  | tag
  /-- Inside an attribute value opened by the quote. -/
  | value (quote : Char)
  | verbatim (v : Verbatim)
  | doctype
  deriving DecidableEq

/-- How far the tag being read has come. -/
inductive Stage where
  /-- Outside tags. -/
  | base
  /-- After the delimiter of an opening tag. -/
  | tagName
  /-- After the delimiter of a closing tag. -/
  | closeName
  /-- After the name of a closing tag that fits the innermost open element. -/
  | closing
  /-- After a name, or something else, that fits no closing tag. -/
  | closingError
  /-- Where an attribute may stand. -/
  | attributes
  /-- After an attribute's name. -/
  | afterAttribute
  /-- After the equals sign. -/
  | value
  /-- After a quoted value. -/
  | afterValue
  deriving DecidableEq

/-- The state of a markup tokenizer. -/
structure State where
  zone : Zone
  stage : Stage
  /-- The name of the opening tag being read. -/
  tagName : Option String
  /-- The column of the opening tag being read. -/
  tagColumn : Nat
  /-- The indentation of the line. -/
  lineIndent : Nat
  /-- The column of unindented content. -/
  baseIndent : Nat
  /-- The column of the last quoted value. -/
  valueColumn : Nat
  /-- The open elements, innermost first. -/
  context : List Element
  /-- Whether the token just read completed an opening tag that opened an element. -/
  opened : Bool
  deriving DecidableEq

namespace State

/-- The state before the first line. -/
def initial (baseIndent : Nat) : State where
  zone := .text
  stage := .base
  tagName := none
  tagColumn := 0
  lineIndent := baseIndent
  baseIndent := baseIndent
  valueColumn := 0
  context := []
  opened := false

/-- The innermost open element. -/
def openElement (s : State) : Option String := s.context.head?.map (·.name)

/-- The element opened by the token just read. -/
def openedElement (s : State) : Option String := if s.opened then s.openElement else none

/-- Open an element inside those already open. Layout kept outside is kept inside. -/
def push (name : String) (startsLine keepsLayout : Bool) (s : State) : State :=
  let keeps := keepsLayout || s.context.head?.any (·.keepsLayout)
  { s with context := ⟨name, s.lineIndent, startsLine, keeps⟩ :: s.context }

/-- Close the innermost open element. -/
def pop (s : State) : State := { s with context := s.context.tail }

/-- Whether two states are taken to be interchangeable: they agree on the indentation of the
line, the zone and the names of the open elements. -/
def agrees (a b : State) : Bool :=
  a.lineIndent == b.lineIndent && a.zone == b.zone &&
    a.context.map (·.name) == b.context.map (·.name)

end State

end Markup

end MixedMarkup
