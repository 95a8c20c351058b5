import MixedMarkup.Options
import MixedMarkup.Script.Lexeme
import MixedMarkup.Tokenizer
/-!
# Scripts — the tokenizer

The javascript tokenizer. Block comments and template literals carry over
to the lines that follow. The style of a word depends on the significant
token before it, and the open brackets give the indentation.
-/

namespace MixedMarkup

namespace Script

/-- The construct that the cursor is in. -/
inductive Zone where
  | code
  | comment
  | template
  deriving DecidableEq

/-- The significant token before the cursor, as far as it matters to a word. -/
inductive Previous where
  /-- There is none yet. -/
  | nothing
  /-- A dot: a property follows. -/
  | dot
  /-- A declaring keyword: a definition follows. -/
  | declarator
  | other
  deriving DecidableEq

/-- An open bracket. -/
structure Bracket where
  /-- The bracket that closes this one. -/
  closer : Char
  /-- The indentation of the line it stands on. -/
  indent : Nat
  deriving DecidableEq

/-- The state of the script tokenizer. -/
structure State where
  zone : Zone
  /-- The open brackets, innermost first. -/
  brackets : List Bracket
  /-- The column of unindented content. -/
  baseIndent : Nat
  /-- The indentation of the line. -/
  lineIndent : Nat
  previous : Previous
  deriving DecidableEq

/-- The state before the first line. -/
def State.initial (baseIndent : Nat) : State := ⟨.code, [], baseIndent, baseIndent, .nothing⟩

/-- Words with a meaning of their own. -/
def keywords : List String :=
  ["async", "await", "break", "case", "catch", "class", "const", "continue", "debugger",
    "default", "delete", "do", "else", "export", "extends", "finally", "for", "function", "if",
    "import", "in", "instanceof", "let", "new", "of", "return", "static", "super", "switch",
    "throw", "try", "typeof", "var", "void", "while", "with", "yield"]

/-- Keywords that declare the word after them. -/
def declarators : List String := ["var", "let", "const", "function", "class"]

/-- Words that stand for a value. -/
def atoms : List String := ["true", "false", "null", "undefined", "NaN", "Infinity", "this"]

/-- The style of a word after the token before it, and what the word is to the token after it. -/
def styleWord (word : String) : Previous → Style × Previous
  | .dot => (.property, .other)
  | previous =>
    if keywords.contains word then
      (.keyword, if declarators.contains word then .declarator else .other)
    else if atoms.contains word then (.atom, .other)
    else if previous = .declarator then (.definition, .other)
    else (.identifier, .other)

/-- Read a block comment through its end. -/
def inComment (c : Cursor) (s : State) : Step State :=
  let scan := Scan.through "*/".toList c.rest
  ⟨some .comment, c.read scan.width, { s with zone := if scan.closed then .code else .comment }⟩

/-- Read a template literal through its end. A backslash has no effect beyond its line. -/
def inTemplate (c : Cursor) (s : State) : Step State :=
  let scan := Scan.quoted templateMark false c.rest
  ⟨some .string, c.read scan.width, { s with zone := if scan.closed then .code else .template }⟩

/-- The brackets left by a closing one: it closes the innermost bracket if it fits. -/
def closeBracket (bracket : Char) : List Bracket → List Bracket
  | [] => []
  | top :: outer => if top.closer = bracket then outer else top :: outer

/-- Finish the token of a lexeme that has just been read. -/
def finish (l : Lexeme) (c : Cursor) (s : State) : Step State :=
  match l with
  | .lineComment => ⟨some .comment, c, s⟩
  | .blockComment => inComment c s
  | .quote mark => ⟨some .string, c.readString mark, { s with previous := .other }⟩
  | .template => inTemplate c { s with previous := .other }
  | .number => ⟨some .number, c, { s with previous := .other }⟩
  | .word =>
    let (style, previous) := styleWord (String.ofList c.token) s.previous
    ⟨some style, c, { s with previous := previous }⟩
  | .opening closer =>
    ⟨none, c, { s with brackets := ⟨closer, s.lineIndent⟩ :: s.brackets, previous := .other }⟩
  | .closing bracket =>
    ⟨none, c, { s with brackets := closeBracket bracket s.brackets, previous := .other }⟩
  | .dot => ⟨none, c, { s with previous := .dot }⟩
  | .punctuation => ⟨none, c, { s with previous := .other }⟩
  | .operator => ⟨some .operator, c, { s with previous := .other }⟩

/-- Read one token outside comments and template literals. A character that starts no lexeme is
a token without a style. -/
def inCode (c : Cursor) (s : State) : Step State :=
  match c.readBlanks? with
  | some c => ⟨none, c, s⟩
  | none =>
    match lexeme? c.rest with
    | some (l, width) => finish l (c.read width) s
    | none =>
      match c.next? with
      | some (_, c) => ⟨none, c, { s with previous := .other }⟩
      | none => ⟨none, c, s⟩

/-- The state at a token: the first token of a line takes note of its indentation. -/
def enter (c : Cursor) (s : State) : State :=
  { s with lineIndent := if c.atStart then c.indentation else s.lineIndent }

/-- Read one token. -/
def token (c : Cursor) (s : State) : Step State :=
  match s.zone with
  | .comment => inComment c (enter c s)
  | .template => inTemplate c (enter c s)
  | .code => inCode c (enter c s)

/-- The indentation of a line that begins with the text: one unit inside the innermost bracket,
or with the bracket's line if the line begins by closing it. -/
def indent (unit : Nat) (s : State) (text : List Char) : Option Nat :=
  match s.zone, s.brackets with
  | .comment, _ | .template, _ => none
  | .code, [] => some s.baseIndent
  | .code, top :: _ =>
    if (Text.dropBlanks text).head? = some top.closer then some top.indent
    else some (top.indent + unit)

/-- The javascript tokenizer. -/
def tokenizer (o : Options) : Tokenizer State where
  name := "javascript"
  start := State.initial
  token := token
  indent := indent o.indentUnit
  electric := "\x7b\x7d"

end Script

end MixedMarkup
