import MixedMarkup.Markup.Tag
import MixedMarkup.Text.Word
/-!
# Markup — indentation

A line is indented below the innermost open element that began a line.
Inside a tag or a value it is aligned with what the tag began with; where
layout is kept, and inside verbatim constructs, there is no opinion. A tag at the start
of the line counts before it is read: a closing tag stands with its
element, and an opening tag with those that it does not end.
-/

namespace MixedMarkup

namespace Markup

open Text

/-- Whether a character may stand in the name of a tag ahead. -/
def isNameChar (c : Char) : Bool := isWord c || c == ':' || c == '.' || c == '-'

/-- A tag at the start of a text. -/
inductive TagAhead where
  | opening (name : List Char)
  | closing (name : List Char)
  deriving DecidableEq

/-- The tag at the start of a text; its name may be empty. -/
def tagAhead? : List Char → Option TagAhead
  | '<' :: '/' :: text => some (.closing (text.takeWhile isNameChar))
  | '<' :: text => some (.opening (text.takeWhile isNameChar))
  | _ => none

/-- How a markup tokenizer is set up. -/
structure Setup where
  flavour : Flavour
  indentUnit : Nat
  tagLineFactor : Nat
  tagLinePastName : Bool
  deriving DecidableEq

namespace Flavour

variable (f : Flavour)

/-- The open elements outside the one that a closing tag of `name` would close. The tag reaches
through elements that may end without one. -/
def outsideClosing (name : String) : List Element → List Element
  | [] => []
  | top :: outer =>
    if top.name = name then outer
    else if f.endsItself top.name then outsideClosing name outer
    else top :: outer

/-- The open elements around a line that begins with the text. -/
def contextAhead (context : List Element) (text : List Char) : List Element :=
  match tagAhead? text with
  | none => context
  | some (.closing name) => f.outsideClosing (f.elementName name) context
  | some (.opening name) => f.afterGrabs (f.elementName name) context

end Flavour

namespace Setup

/-- The column of a later line of a tag with the name. -/
def tagLineColumn (m : Setup) (name : String) (s : State) : Nat :=
  if m.tagLinePastName then s.tagColumn + byteSize name.toList + 2
  else s.tagColumn + m.indentUnit * m.tagLineFactor

/-- The column of a line inside the elements. -/
def contentColumn (m : Setup) (context : List Element) (s : State) : Nat :=
  match context.find? (·.startsLine) with
  | some e => e.indent + m.indentUnit
  | none => s.baseIndent

/-- The column of a line outside values and verbatim constructs. -/
def lineColumn (m : Setup) (s : State) (text : List Char) : Nat :=
  match s.tagName with
  | some name => m.tagLineColumn name s
  | none => m.contentColumn (m.flavour.contextAhead s.context text) s

/-- The indentation of a line that begins with the text. -/
def indent (m : Setup) (s : State) (text : List Char) : Option Nat :=
  match s.zone with
  | .value _ =>
    some (if s.tagColumn = s.lineIndent then s.valueColumn + 1 else s.lineIndent + m.indentUnit)
  | .verbatim _ | .doctype => none
  | .text | .tag =>
    if s.context.head?.any (·.keepsLayout) then none
    else some (m.lineColumn s (dropBlanks text))

end Setup

end Markup

end MixedMarkup
