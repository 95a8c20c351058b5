import MixedMarkup.Settings.Toml.Draft
import MixedMarkup.Settings.Toml.Word
/-!
# Settings — TOML files

Reading configuration files, with all the values that TOML 1.0 has. A key
may be set once, and a table may be described once; a file that breaks
these rules, or the written form, is refused as a whole.
-/

namespace MixedMarkup

namespace Settings

namespace Toml

open Text Text.Reader

/-! ## Blanks, comments and line ends -/

/-- Read blanks on a line. -/
def blanks : Reader Unit := do let _ ← many fun c => c == ' ' || c == '\t'

/-- Whether a character may stand in a comment or a string: a tab, or no control character. -/
def isTextChar (c : Char) : Bool := c == '\t' || (0x20 ≤ c.toNat && c.toNat != 0x7F)

/-- Read a comment, if one comes next. -/
def comment : Reader Unit := do
  if ← accept "#" then let _ ← many isTextChar

/-- Read the end of a line, if it comes next. -/
def lineEnd : Reader Bool := do if ← accept "\n" then return true else accept "\r\n"

/-- Read blanks, comments and line ends. -/
def gaps : Nat → Reader Unit
  | 0 => failure
  | fuel + 1 => do
    blanks
    comment
    if ← lineEnd then gaps fuel

/-! ## Strings -/

/-- Read a number of `n` hexadecimal digits after the part already read. -/
def hexNumber : Nat → Nat → Reader Nat
  | 0, value => return value
  | n + 1, value => do
    match hexValue? (← next) with
    | some d => hexNumber n (16 * value + d)
    | none => failure

/-- Read the character that a number of `n` hexadecimal digits names. -/
def codePoint (n : Nat) : Reader Char := do
  let code ← hexNumber n 0
  if code.isValidChar then return Char.ofNat code else failure

/-- Read the character that is written by a backslash and what follows it. -/
def escape : Reader Char := do
  match ← next with
  | 'b' => return '\x08'
  | 't' => return '\t'
  | 'n' => return '\n'
  | 'f' => return '\x0c'
  | 'r' => return '\r'
  | '\x22' => return '\x22'
  | '\\' => return '\\'
  | 'u' => codePoint 4
  | 'U' => codePoint 8
  | _ => failure

/-- Read a basic string after its quote. -/
def basicString : Nat → Reader (List Char)
  | 0 => failure
  | fuel + 1 => do
    let c ← next
    if c == '\x22' then return []
    if c == '\\' then return (← escape) :: (← basicString fuel)
    if isTextChar c then return c :: (← basicString fuel) else failure

/-- Read a literal string after its quote. -/
def literalString : Reader (List Char) := do
  let cs ← many fun c => isTextChar c && c != '\x27'
  expect "'"
  return cs

/-- The quotes at the end of a string over several lines: three end it, and up to two before
them belong to it. -/
def closingQuotes (quote : Char) : Reader (Option (List Char)) := do
  let run := ((← ahead).takeWhile (· == quote)).take 5
  if run.length < 3 then return none
  for _ in run do
    let _ ← next
  return some (run.drop 3)

/-- Read blanks and line ends after a backslash at the end of a line. -/
def lineJoin : Reader Unit := do
  blanks
  unless ← lineEnd do failure
  let _ ← many fun c => c == ' ' || c == '\t' || c == '\n' || c == '\r'

/-- Whether only blanks stand before the end of the line. -/
def endsLine (text : List Char) : Bool :=
  match text.dropWhile fun c => c == ' ' || c == '\t' with
  | '\n' :: _ | '\r' :: '\n' :: _ => true
  | _ => false

/-- Read a string over several lines after its quotes, with escapes or without. -/
def longString (quote : Char) (escapes : Bool) : Nat → Reader (List Char)
  | 0 => failure
  | fuel + 1 => do
    if let some rest ← closingQuotes quote then return rest
    if ← lineEnd then return '\n' :: (← longString quote escapes fuel)
    let c ← next
    if c == '\\' && escapes then
      if endsLine (← ahead) then
        lineJoin
        longString quote escapes fuel
      else return (← escape) :: (← longString quote escapes fuel)
    else if isTextChar c then return c :: (← longString quote escapes fuel)
    else failure

/-- Read a string over several lines; a line end right after its quotes is not part of it. -/
def longText (quote : Char) (escapes : Bool) (fuel : Nat) : Reader (List Char) := do
  let _ ← lineEnd
  longString quote escapes fuel

/-! ## Keys -/

/-- Whether a character may stand in a key without quotes. -/
def isBareChar (c : Char) : Bool := c.isAlphanum || c == '_' || c == '-'

/-- Read a key without dots. -/
def simpleKey (fuel : Nat) : Reader String := do
  if ← accept "\x22" then return String.ofList (← basicString fuel)
  if ← accept "'" then return String.ofList (← literalString)
  return String.ofList (← many1 isBareChar)

/-- Read a key, with the blanks around its dots and after it. -/
def key : Nat → Reader (List String)
  | 0 => failure
  | fuel + 1 => do
    blanks
    let first ← simpleKey fuel
    blanks
    if ← accept "." then return first :: (← key fuel) else return [first]

/-! ## Values -/

mutual

/-- Read a value. -/
def value : Nat → Reader Value
  | 0 => failure
  | fuel + 1 => do
    if ← accept "\x22\x22\x22" then return .text (String.ofList (← longText '\x22' true fuel))
    if ← accept "'''" then return .text (String.ofList (← longText '\x27' false fuel))
    if ← accept "\x22" then return .text (String.ofList (← basicString fuel))
    if ← accept "'" then return .text (String.ofList (← literalString))
    if ← accept "[" then return .list (← listItems fuel)
    if ← accept "\x7b" then
      blanks
      if ← accept "\x7d" then return .table []
      return (← tableItems fuel .empty).root
    word

/-- Read the items of a list after its bracket or after a comma. -/
def listItems : Nat → Reader (List Value)
  | 0 => failure
  | fuel + 1 => do
    gaps fuel
    if ← accept "]" then return []
    let item ← value fuel
    gaps fuel
    if ← accept "," then return item :: (← listItems fuel)
    expect "]"
    return [item]

/-- Read the entries of an inline table after its brace or after a comma. -/
def tableItems : Nat → Draft → Reader Draft
  | 0, _ => failure
  | fuel + 1, d => do
    let keys ← key fuel
    expect "="
    blanks
    let v ← value fuel
    blanks
    match d.define [] keys v with
    | none => failure
    | some d =>
      if ← accept "," then tableItems fuel d
      else
        expect "\x7d"
        return d

end

/-! ## Files -/

/-- Read the rest of a line, which may hold a comment; whether another line follows. -/
def endOfEntry : Reader Bool := do
  blanks
  comment
  if ← lineEnd then return true
  if (← ahead).isEmpty then return false else failure

/-- Read a header after its bracket, and the table it describes; its place comes with the draft. -/
def header (fuel : Nat) (d : Draft) : Reader (Draft × Path) := do
  let ofSeries ← accept "["
  let keys ← key fuel
  expect (if ofSeries then "]]" else "]")
  match if ofSeries then d.openItem keys else d.openTable keys with
  | some opened => return opened
  | none => failure

/-- Read a key and its value, which belong to the table. -/
def entry (fuel : Nat) (d : Draft) (table : Path) : Reader (Draft × Path) := do
  let keys ← key fuel
  expect "="
  blanks
  let v ← value fuel
  match d.define table keys v with
  | some d => return (d, table)
  | none => failure

/-- Read the lines of a file, where entries belong to the table. -/
def entries : Nat → Draft → Path → Reader Draft
  | 0, _, _ => failure
  | fuel + 1, d, table => do
    gaps fuel
    if (← ahead).isEmpty then return d
    let (d, table) ← if ← accept "[" then header fuel d else entry fuel d table
    if ← endOfEntry then entries fuel d table else return d

/-- The entries of a file. Each reader that calls another has read a character before or reads
one after, so two calls for each character and a few more are enough. -/
def read? (text : String) : Option (List (String × Value)) :=
  let reader : Reader Draft := do
    let _ ← accept "\ufeff"
    entries (2 * text.length + 8) .empty []
  (reader.readAll? text.toList).map (·.root.entries)

end Toml

end Settings

end MixedMarkup
