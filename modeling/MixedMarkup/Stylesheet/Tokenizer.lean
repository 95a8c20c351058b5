import MixedMarkup.Options
import MixedMarkup.Stylesheet.Lexeme
import MixedMarkup.Tokenizer
/-!
# Stylesheets — the tokenizer

The css tokenizer. What an identifier is depends on where it stands: a
selector before a brace, a property inside a rule, a value after the
property's colon. The block of an at-rule holds rules again.
-/

namespace MixedMarkup

namespace Stylesheet

/-- The construct that the cursor is in. -/
inductive Zone where
  | rules
  | comment
  deriving DecidableEq

/-- A kind of bracketed stretch. -/
inductive NestKind where
  /-- The declarations of a rule. -/
  | rule
  /-- The body of an at-rule, which holds rules. -/
  | atRule
  | parens
  deriving DecidableEq

/-- An open bracketed stretch. -/
structure Nest where
  kind : NestKind
  /-- The indentation of the line it was opened on. -/
  indent : Nat
  deriving DecidableEq

/-- The state of the stylesheet tokenizer. -/
structure State where
  zone : Zone
  /-- The open nests, innermost first. -/
  nests : List Nest
  /-- Whether the cursor stands after the colon of a declaration. -/
  inValue : Bool
  /-- Whether the cursor stands after the colon of a selector. -/
  pseudo : Bool
  /-- Whether the next brace opens the body of an at-rule. -/
  inPrelude : Bool
  /-- The column of unindented content. -/
  baseIndent : Nat
  /-- The indentation of the line. -/
  lineIndent : Nat
  deriving DecidableEq

namespace State

/-- The state before the first line. -/
def initial (baseIndent : Nat) : State where
  zone := .rules
  nests := []
  inValue := false
  pseudo := false
  inPrelude := false
  baseIndent := baseIndent
  lineIndent := baseIndent

/-- Whether the innermost nest other than parentheses is the block of a rule. -/
def inDeclarations (s : State) : Bool :=
  (s.nests.find? (·.kind != .parens)).any (·.kind == .rule)

/-- Open a nest on this line. -/
def push (kind : NestKind) (s : State) : State :=
  { s with nests := ⟨kind, s.lineIndent⟩ :: s.nests }

end State

/-- The nests left by a closing brace: it closes the innermost block with all parentheses left
open in it. -/
def closeBrace : List Nest → List Nest
  | [] => []
  | top :: outer => if top.kind = .parens then closeBrace outer else outer

/-- The nests left by a closing parenthesis: it closes the innermost nest if that is one. -/
def closeParen : List Nest → List Nest
  | [] => []
  | top :: outer => if top.kind = .parens then outer else top :: outer

/-- The style of an identifier, where `pseudo` tells whether it follows a selector's colon. -/
def identStyle (pseudo : Bool) (s : State) : Style :=
  if pseudo then .qualifier
  else if !s.inDeclarations then .tag
  else if s.inValue then .atom
  else .property

/-- Read a comment through its end. -/
def inComment (c : Cursor) (s : State) : Step State :=
  let scan := Scan.through "*/".toList c.rest
  ⟨some .comment, c.read scan.width, { s with zone := if scan.closed then .rules else .comment }⟩

/-- The state after a lexeme other than a comment, which ends what a selector's colon began. -/
def afterLexeme (l : Lexeme) (s : State) : State :=
  let s := { s with pseudo := false }
  match l with
  | .atKeyword => { s with inPrelude := true }
  | .openBrace =>
    { s.push (if s.inPrelude then .atRule else .rule) with inPrelude := false, inValue := false }
  | .closeBrace => { s with nests := closeBrace s.nests, inValue := false }
  | .openParen => s.push .parens
  | .closeParen => { s with nests := closeParen s.nests }
  | .colon => if s.inDeclarations then { s with inValue := true } else { s with pseudo := true }
  | .semicolon => { s with inValue := false, inPrelude := false }
  | _ => s

/-- The style of a lexeme read in a state. -/
def lexemeStyle (l : Lexeme) (s : State) : Option Style :=
  match l with
  | .comment => some .comment
  | .quote _ => some .string
  | .number => some .number
  | .hash => some (if s.inValue then .atom else .builtin)
  | .atKeyword => some .definition
  | .ident => some (identStyle s.pseudo s)
  | .className => some .qualifier
  | .important => some .keyword
  | .operator => some .operator
  | .openBrace | .closeBrace | .openParen | .closeParen | .colon | .semicolon | .comma => none

/-- Finish the token of a lexeme that has just been read. -/
def finish (l : Lexeme) (c : Cursor) (s : State) : Step State :=
  match l with
  | .comment => inComment c s
  | .quote mark => ⟨lexemeStyle l s, c.readString mark, afterLexeme l s⟩
  | _ => ⟨lexemeStyle l s, c, afterLexeme l s⟩

/-- Read one token outside comments. A character that starts no lexeme is a token without a
style. -/
def inRules (c : Cursor) (s : State) : Step State :=
  match c.readBlanks? with
  | some c => ⟨none, c, s⟩
  | none =>
    match lexeme? c.rest with
    | some (l, width) => finish l (c.read width) s
    | none => ⟨none, c.read 1, s⟩

/-- The state at a token: the first token of a line takes note of its indentation. -/
def enter (c : Cursor) (s : State) : State :=
  { s with lineIndent := if c.atStart then c.indentation else s.lineIndent }

/-- Read one token. -/
def token (c : Cursor) (s : State) : Step State :=
  match s.zone with
  | .comment => inComment c (enter c s)
  | .rules => inRules c (enter c s)

/-- The bracket that closes a nest. -/
def NestKind.closer : NestKind → Char
  | parens => ')'
  | rule | atRule => '}'

/-- The indentation of a line that begins with the text: one unit inside the innermost nest, or
with the nest's line if the line begins by closing it. -/
def indent (unit : Nat) (s : State) (text : List Char) : Option Nat :=
  match s.zone, s.nests with
  | .comment, _ => none
  | .rules, [] => some s.baseIndent
  | .rules, top :: _ =>
    if (Text.dropBlanks text).head? = some top.kind.closer then some top.indent
    else some (top.indent + unit)

/-- The css tokenizer. -/
def tokenizer (o : Options) : Tokenizer State where
  name := "css"
  start := State.initial
  token := token
  indent := indent o.indentUnit
  electric := "\x7d"

end Stylesheet

end MixedMarkup
