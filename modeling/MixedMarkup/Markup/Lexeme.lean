import MixedMarkup.Markup.State
import MixedMarkup.Scan
import MixedMarkup.Text.Digits
import MixedMarkup.Text.Numeric
import MixedMarkup.Tokenizer
/-!
# Markup — lexemes

The lexical layer. It reads one piece of text as the zone demands, moves
the zone along, and says what the piece means to the tag being read, if
it means anything there.
-/

namespace MixedMarkup

namespace Markup

open Text

/-- What a piece of text is to the tag it stands in. -/
inductive Lexeme where
  /-- The delimiter of an opening tag. -/
  | openTag
  /-- The delimiter of a closing tag. -/
  | closeTag
  /-- The end of a tag. -/
  | endTag
  /-- The end of a tag that closes its own element. -/
  | selfClose
  | equals
  | word
  /-- A quoted value, or the part of it on this line. -/
  | quoted
  deriving DecidableEq

/-- A piece of text as the lexical layer sees it. -/
structure Piece where
  style : Option Style
  /-- The meaning to the tag layer; `none` for what no tag is made of. -/
  lexeme : Option Lexeme
  cursor : Cursor
  state : State

namespace Verbatim

/-- The text that ends the construct. -/
def terminator : Verbatim → List Char
  | comment => "-->".toList
  | cdata => "]]>".toList
  | instruction => "?>".toList

/-- The style of the construct. -/
def style : Verbatim → Style
  | comment => .comment
  | cdata => .atom
  | instruction => .metadata

end Verbatim

/-- Read a verbatim construct through its terminator. -/
def inVerbatim (v : Verbatim) (c : Cursor) (s : State) : Piece :=
  let scan := Scan.through v.terminator c.rest
  ⟨some v.style, none, c.read scan.width,
    { s with zone := if scan.closed then .text else .verbatim v }⟩

/-- Read a document type through its `>`. -/
def inDoctype (c : Cursor) (s : State) : Piece :=
  let scan := Scan.through ['>'] c.rest
  ⟨some .metadata, none, c.read scan.width,
    { s with zone := if scan.closed then .text else .doctype }⟩

/-- Read an attribute value through its quote. -/
def inValue (quote : Char) (c : Cursor) (s : State) : Piece :=
  let scan := Scan.through [quote] c.rest
  ⟨some .string, some .quoted, c.read scan.width,
    { s with zone := if scan.closed then .tag else .value quote }⟩

/-- Whether a character may stand in the name of an entity. -/
def isEntityChar (c : Char) : Bool :=
  isAlphanumeric c || c == '.' || c == '-' || c == ':' || c == '_'

/-- The characters of an entity of the kind that the text after `&` announces, and the cursor
at the first of them. -/
def entityBody (c : Cursor) : (Char → Bool) × Cursor :=
  match c.readChar? '#' with
  | none => (isEntityChar, c)
  | some c =>
    match c.readChar? 'x' with
    | none => (Char.isDigit, c)
    | some c => (isHexDigit, c)

/-- Read an entity after its `&`: at least one character of its kind, and a `;`. One that breaks
off is an error. -/
def inEntity (c : Cursor) (s : State) : Piece :=
  let (p, c) := entityBody c
  match c.readWhile? p with
  | none => ⟨some .error, none, c, s⟩
  | some c =>
    match c.readChar? ';' with
    | none => ⟨some .error, none, c, s⟩
    | some c => ⟨some .atom, none, c, s⟩

/-- Read what follows `<!`. -/
def inDeclaration (c : Cursor) (s : State) : Piece :=
  match c.readChar? '[' with
  | some c =>
    match c.readLiteral? "CDATA[".toList with
    | some c => inVerbatim .cdata c s
    | none => ⟨none, none, c, s⟩
  | none =>
    match c.readLiteral? "--".toList with
    | some c => inVerbatim .comment c s
    | none =>
      match c.readLiteralAnyCase? "DOCTYPE".toList with
      | some c => inDoctype c s
      | none => ⟨none, none, c, s⟩

/-- Read what follows `<`. -/
def inDelimiter (c : Cursor) (s : State) : Piece :=
  match c.readChar? '!' with
  | some c => inDeclaration c s
  | none =>
    match c.readChar? '?' with
    | some c => inVerbatim .instruction c s
    | none =>
      match c.readChar? '/' with
      | some c => ⟨some .tag, some .closeTag, c, { s with zone := .tag }⟩
      | none => ⟨some .tag, some .openTag, c, { s with zone := .tag }⟩

/-- Read a piece of text between tags. -/
def inText (c : Cursor) (s : State) : Piece :=
  match c.next? with
  | none => ⟨none, none, c, s⟩
  | some ('<', c) => inDelimiter c s
  | some ('&', c) => inEntity c s
  | some (_, c) => ⟨none, none, c.skip fun ch => ch != '&' && ch != '<', s⟩

/-- Whether a character may stand in a word of a tag. -/
def isWordChar (c : Char) : Bool :=
  !isBlank c && c != '=' && c != '<' && c != '>' && c != '\x22' && c != '\x27'

/-- How many slashes end a text. -/
def trailingSlashes (text : List Char) : Nat := (text.reverse.takeWhile (· == '/')).length

/-- Read a word of a tag after its first character. Slashes at its end belong to what follows,
unless the word begins with them. -/
def inWord (c : Cursor) : Cursor :=
  let c := c.skip isWordChar
  c.unread (trailingSlashes c.token.tail)

/-- Read a piece of a tag. A `<` gives the tag up. -/
def inTag (c : Cursor) (s : State) : Piece :=
  match c.next? with
  | none => ⟨none, none, c, s⟩
  | some (ch, c) =>
    if ch == '>' then ⟨some .tag, some .endTag, c, { s with zone := .text }⟩
    else if ch == '=' then ⟨none, some .equals, c, s⟩
    else if ch == '<' then
      ⟨some .error, none, c,
        { s with zone := .text, stage := .base, tagName := none, tagColumn := 0 }⟩
    else if ch == '\x22' || ch == '\x27' then
      inValue ch c { s with valueColumn := c.column }
    else if ch == '/' && c.peek? == some '>' then
      ⟨some .tag, some .selfClose, c.read 1, { s with zone := .text }⟩
    else ⟨none, some .word, inWord c, s⟩

/-- Read one piece in the zone of the state. -/
def readPiece (c : Cursor) (s : State) : Piece :=
  match s.zone with
  | .text => inText c s
  | .tag => inTag c s
  | .value quote => inValue quote c s
  | .verbatim v => inVerbatim v c s
  | .doctype => inDoctype c s

end Markup

end MixedMarkup
