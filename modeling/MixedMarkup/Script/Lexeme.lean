import MixedMarkup.Scan
/-!
# Scripts — lexemes

The lexemes of javascript, recognised on the text ahead. Strings, block
comments and template literals are recognised by their first characters
only; what follows them is scanned for their end.
-/

namespace MixedMarkup

namespace Script

/-- A lexeme of a script. -/
inductive Lexeme where
  | lineComment
  /-- The start of a block comment. -/
  | blockComment
  /-- The quote that starts a string. -/
  | quote (mark : Char)
  /-- The mark that starts a template literal. -/
  | template
  | number
  | word
  /-- An opening bracket, with the bracket that closes it. -/
  | opening (closer : Char)
  /-- A closing bracket. -/
  | closing (bracket : Char)
  | dot
  | punctuation
  | operator
  deriving DecidableEq

/-- Whether a character may continue a number. -/
def isNumberChar (c : Char) : Bool := c.isAlphanum || c == '_'

/-- Whether a character may start a word. -/
def isWordStart (c : Char) : Bool := c.isAlpha || c == '_' || c == '$'

/-- Whether a character may continue a word. -/
def isWordChar (c : Char) : Bool := c.isAlphanum || c == '_' || c == '$'

/-- Whether a character may stand in a run of operator characters. -/
def isOperatorChar (c : Char) : Bool := "+-*%=&|^~<>!".toList.contains c

/-- The bracket that closes an opening one. -/
def closerOf? : Char → Option Char
  | '{' => some '}'
  | '(' => some ')'
  | '[' => some ']'
  | _ => none

/-- The mark of template literals. -/
def templateMark : Char := '\x60'

/-- The width of a number after its first digit: digits and letters, and a fraction. -/
def numberTail (text : List Char) : Nat :=
  let whole := runLength isNumberChar text
  match text.drop whole with
  | '.' :: fraction => whole + 1 + runLength isNumberChar fraction
  | _ => whole

/-- The lexeme that a slash starts, and its width. -/
def slashLexeme : List Char → Lexeme × Nat
  | '/' :: text => (.lineComment, 2 + runLength (· != '\n') text)
  | '*' :: _ => (.blockComment, 2)
  | _ => (.operator, 1)

/-- The lexeme that a dot starts, and its width. -/
def dotLexeme : List Char → Lexeme × Nat
  | c :: text => if c.isDigit then (.number, 2 + runLength isNumberChar text) else (.dot, 1)
  | [] => (.dot, 1)

/-- The lexeme at the start of a text, and its width; `none` where no lexeme starts. -/
def lexeme? : List Char → Option (Lexeme × Nat)
  | [] => none
  | c :: text =>
    if c == '/' then some (slashLexeme text)
    else if c == '\x22' || c == '\x27' then some (.quote c, 1)
    else if c == templateMark then some (.template, 1)
    else if c.isDigit then some (.number, 1 + numberTail text)
    else if c == '.' then some (dotLexeme text)
    else if isWordStart c then some (.word, 1 + runLength isWordChar text)
    else if isOperatorChar c then some (.operator, 1 + runLength isOperatorChar text)
    else if ";,:?".toList.contains c then some (.punctuation, 1)
    else if "\x7d)]".toList.contains c then some (.closing c, 1)
    else (closerOf? c).map fun closer => (.opening closer, 1)

end Script

end MixedMarkup
