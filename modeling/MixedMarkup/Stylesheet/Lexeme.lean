import MixedMarkup.Scan
/-!
# Stylesheets — lexemes

The lexemes of css, recognised on the text ahead. Strings and comments are
recognised by their first characters only; what follows them is scanned
for their end.
-/

namespace MixedMarkup

namespace Stylesheet

/-- A lexeme of a stylesheet. -/
inductive Lexeme where
  /-- The start of a comment. -/
  | comment
  /-- The quote that starts a string. -/
  | quote (mark : Char)
  | number
  /-- A name after a number sign. -/
  | hash
  /-- The name of an at-rule. -/
  | atKeyword
  | ident
  /-- A name after a dot. -/
  | className
  | important
  | openBrace
  | closeBrace
  | openParen
  | closeParen
  | colon
  | semicolon
  | comma
  | operator
  deriving DecidableEq

/-- Whether a character may start a name. -/
def isNameStart (c : Char) : Bool := c.isAlpha || c == '_'

/-- Whether a character may continue a name. -/
def isNameChar (c : Char) : Bool := c.isAlphanum || c == '_' || c == '-'

/-- Whether a character may stand in a unit. -/
def isUnitChar (c : Char) : Bool := c.isAlpha || c == '%'

/-- The width of digits, taken by `p`, and a unit after them. -/
def quantityLength (p : Char → Bool) (text : List Char) : Nat :=
  let digits := runLength p text
  digits + runLength isUnitChar (text.drop digits)

/-- The width of the number without a sign at the start of a text: digits and dots after a first
digit, or digits after a dot, and then a unit. -/
def unsignedLength? : List Char → Option Nat
  | '.' :: text =>
    if text.head?.any Char.isDigit then some (1 + quantityLength Char.isDigit text) else none
  | c :: text =>
    if c.isDigit then some (1 + quantityLength (fun c => c.isDigit || c == '.') text) else none
  | [] => none

/-- The width of the identifier without leading hyphens at the start of a text. -/
def nameLength? : List Char → Option Nat
  | c :: text => if isNameStart c then some (1 + runLength isNameChar text) else none
  | [] => none

/-- The lexeme that a hyphen starts, and its width: a negative number, or an identifier after
one or two hyphens. -/
def hyphenLexeme? (text : List Char) : Option (Lexeme × Nat) :=
  match unsignedLength? text, nameLength? text, text with
  | some n, _, _ => some (.number, 1 + n)
  | none, some n, _ => some (.ident, 1 + n)
  | none, none, '-' :: more => (nameLength? more).map fun n => (.ident, 2 + n)
  | none, none, _ => none

/-- The lexeme that a dot starts, and its width. -/
def dotLexeme? (text : List Char) : Option (Lexeme × Nat) :=
  match unsignedLength? ('.' :: text), text with
  | some n, _ => some (.number, n)
  | none, c :: more =>
    if isNameStart c || c == '-' then some (.className, 2 + runLength isNameChar more) else none
  | none, [] => none

/-- The lexeme that an exclamation mark starts, and its width. -/
def markLexeme? (text : List Char) : Option (Lexeme × Nat) :=
  let gap := runLength (fun c => c == ' ' || c == '\t') text
  let word := "important".toList
  if word.isPrefixOf (text.drop gap) then some (.important, 1 + gap + word.length) else none

/-- The lexeme that a number sign starts, and its width. -/
def hashLexeme? (text : List Char) : Option (Lexeme × Nat) :=
  let n := runLength isNameChar text
  if 0 < n then some (.hash, 1 + n) else none

/-- The lexeme that an at sign starts, and its width. -/
def atLexeme? : List Char → Option (Lexeme × Nat)
  | c :: text =>
    if isNameStart c || c == '-' then some (.atKeyword, 2 + runLength isNameChar text) else none
  | [] => none

/-- The lexeme of one character. -/
def charLexeme? (c : Char) : Option Lexeme :=
  match c with
  | '{' => some .openBrace
  | '}' => some .closeBrace
  | '(' => some .openParen
  | ')' => some .closeParen
  | ':' => some .colon
  | ';' => some .semicolon
  | ',' => some .comma
  | _ => if ">+~*=[]/|^$".toList.contains c then some .operator else none

/-- The lexeme at the start of a text, and its width; `none` where no lexeme starts. -/
def lexeme? : List Char → Option (Lexeme × Nat)
  | [] => none
  | c :: text =>
    if c == '/' && text.head? == some '*' then some (.comment, 2)
    else if c == '\x22' || c == '\x27' then some (.quote c, 1)
    else if c == '-' then hyphenLexeme? text
    else if c == '.' then dotLexeme? text
    else if c == '!' then markLexeme? text
    else if c == '#' then hashLexeme? text
    else if c == '@' then atLexeme? text
    else if c.isDigit then (unsignedLength? (c :: text)).map fun n => (.number, n)
    else if isNameStart c then (nameLength? (c :: text)).map fun n => (.ident, n)
    else (charLexeme? c).map fun l => (l, 1)

end Stylesheet

end MixedMarkup
