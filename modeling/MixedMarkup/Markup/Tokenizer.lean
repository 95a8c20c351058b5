import MixedMarkup.Markup.Indentation
import MixedMarkup.Options
/-!
# Markup — the tokenizers

The html and xml tokenizers, one for each flavour. Blanks are tokens of
their own wherever they come; everything else is read by the lexical layer
and then, if it belongs to a tag, passed to the tag layer.
-/

namespace MixedMarkup

namespace Markup

namespace Setup

/-- The setup of a flavour under the options. -/
def ofOptions (flavour : Flavour) (o : Options) : Setup :=
  ⟨flavour, o.indentUnit, o.tagLineFactor, o.tagLinePastName⟩

/-- The state at a token: nothing has just been opened, and outside an opening tag the first
token of a line takes note of its indentation. -/
def enter (c : Cursor) (s : State) : State :=
  let indent := if s.tagName.isNone && c.atStart then c.indentation else s.lineIndent
  { s with opened := false, lineIndent := indent }

/-- Read one token. -/
def token (m : Setup) (c : Cursor) (s : State) : Step State :=
  let s := enter c s
  match c.readBlanks? with
  | some c => ⟨none, c, s⟩
  | none =>
    let piece := readPiece c s
    match piece.lexeme with
    | none => ⟨piece.style, piece.cursor, piece.state⟩
    | some l =>
      let (s, style) := m.flavour.step l piece.cursor piece.state
      ⟨style <|> piece.style, piece.cursor, s⟩

end Setup

/-- The name of a flavour's tokenizer. -/
def Flavour.name : Flavour → String
  | html => "html"
  | xml => "xml"

/-- The tokenizer of a setup. -/
def Setup.tokenizer (m : Setup) : HostTokenizer State where
  name := m.flavour.name
  start := State.initial
  token := m.token
  indent := m.indent
  electric := "/"
  openElement := State.openElement
  openedElement := State.openedElement
  sameState := State.agrees

/-- The html tokenizer. -/
def html (o : Options) : HostTokenizer State := (Setup.ofOptions .html o).tokenizer

/-- The xml tokenizer. -/
def xml (o : Options) : HostTokenizer State := (Setup.ofOptions .xml o).tokenizer

end Markup

end MixedMarkup
