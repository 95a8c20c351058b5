import MixedMarkup.Pattern.Expr
import MixedMarkup.Text.Alphabetic
import MixedMarkup.Text.Digits
import MixedMarkup.Text.Reader
/-!
# Patterns — reading

The written form of patterns: literals, the dot, classes in brackets with
the operations on them, `\d`, `\s`, `\w` and their complements, the named
classes of ASCII, characters by their code points, groups, alternatives,
repetitions greedy and lazy, anchors and word boundaries. Directives such as
`(?i)` change the rules for what follows in their group: `i` ignores case,
`s` lets the dot match a line feed, `U` swaps greedy and lazy, and `u` is in
force anyway.

A form that breaks off or asks for something else is no pattern. Beside
look-around and back references, which no pattern has, this leaves out the
Unicode properties (`\p`), the anchors of lines (`m`, `R`), free spacing
(`x`), matching without Unicode (`-u`) and the one-sided word boundaries.
Nor is there a limit to the size of a pattern.
-/

namespace MixedMarkup

namespace Pattern

open Text

/-- The rules that directives change. -/
structure Rules where
  ignoreCase : Bool
  /-- Whether the dot matches a line feed. -/
  dotAll : Bool := false
  /-- Whether a repetition is lazy unless a question mark follows it. -/
  swapGreed : Bool := false

/-- What is known about a pattern at some place in it. -/
structure Progress where
  /-- The rules in force from here on. -/
  rules : Rules
  /-- The number of groups opened so far. -/
  groups : Nat
  /-- The names that groups have been given so far. -/
  names : List String

/-- A reader of part of a pattern. -/
abbrev PatternReader := StateT Progress Reader

open Text.Reader

/-- Whether a backslash before the character makes it stand for itself: ASCII characters other
than letters, digits and angle brackets. -/
def isEscapable (c : Char) : Bool :=
  isAscii c && !c.isAlphanum && c != '<' && c != '>'

/-- The character that a letter stands for after a backslash. -/
def controlEscape? : Char → Option Char
  | 'a' => some '\x07'
  | 'f' => some '\x0c'
  | 't' => some '\t'
  | 'n' => some '\n'
  | 'r' => some '\r'
  | 'v' => some '\x0b'
  | _ => none

/-- The set that a letter stands for after a backslash. -/
def setEscape? : Char → Option CharSet
  | 'd' => some .digit
  | 'D' => some (.compl .digit)
  | 's' => some .blank
  | 'S' => some (.compl .blank)
  | 'w' => some .word
  | 'W' => some (.compl .word)
  | _ => none

/-- The condition that a letter stands for after a backslash. -/
def anchorEscape? : Char → Option Expr
  | 'b' => some (.wordBoundary false)
  | 'B' => some (.wordBoundary true)
  | 'A' => some .startOfText
  | 'z' => some .endOfText
  | _ => none

/-- The character that stands for itself or a control character after a backslash. -/
def charEscape? (c : Char) : Option Char :=
  controlEscape? c <|> (if isEscapable c then some c else none)

/-- The number of hexadecimal digits that a letter asks for after a backslash. -/
def codeLength? : Char → Option Nat
  | 'x' => some 2
  | 'u' => some 4
  | 'U' => some 8
  | _ => none

/-- A character by its code point, of which `length` digits follow, or any number in braces. -/
def codePoint (length : Nat) : Reader Char := do
  let digits ← if ← accept "\x7b" then
      let digits ← many1 isHexDigit
      expect "\x7d"
      pure digits
    else (List.range length).mapM fun _ => next
  match digitsValue? 16 digits with
  | some code => if code.isValidChar then return Char.ofNat code else failure
  | none => failure

/-! ## Classes -/

namespace CharSet

/-- The characters of both sets. -/
def inter (a b : CharSet) : CharSet := .compl (.union (.compl a) (.compl b))

/-- The characters of the first set that the second one does not have. -/
def diff (a b : CharSet) : CharSet := .compl (.union (.compl a) b)

/-- The union of some sets. -/
def unions (sets : List CharSet) : CharSet := sets.foldr .union .none

end CharSet

/-- The letters of ASCII. -/
def letters : CharSet := .union (.range 'a' 'z') (.range 'A' 'Z')

/-- The named classes of ASCII. -/
def namedClass? : String → Option CharSet
  | "alnum" => some (.union letters (.range '0' '9'))
  | "alpha" => some letters
  | "ascii" => some (.range '\x00' '\x7f')
  | "blank" => some (.union (.char '\t') (.char ' '))
  | "cntrl" => some (.union (.range '\x00' '\x1f') (.char '\x7f'))
  | "digit" => some (.range '0' '9')
  | "graph" => some (.range '!' '~')
  | "lower" => some (.range 'a' 'z')
  | "print" => some (.range ' ' '~')
  | "punct" => some (.unions [.range '!' '/', .range ':' '@', .range '[' '\x60', .range '\x7b' '~'])
  | "space" => some (.union (.range '\t' '\r') (.char ' '))
  | "upper" => some (.range 'A' 'Z')
  | "word" => some (.unions [letters, .range '0' '9', .char '_'])
  | "xdigit" => some (.unions [.range '0' '9', .range 'A' 'F', .range 'a' 'f'])
  | _ => none

/-- A named class after its opening bracket, through the closing one. -/
def namedClass : Reader CharSet := do
  expect ":"
  let negated ← accept "^"
  let name ← many (· != ':')
  expect ":]"
  match namedClass? (String.ofList name) with
  | some set => return if negated then .compl set else set
  | none => failure

/-- A part of a class: a character, which may bound a range, or a set. -/
def classPart : Reader (Char ⊕ CharSet) := do
  let c ← next
  if c != '\\' then return .inl c
  let e ← next
  match charEscape? e, setEscape? e, codeLength? e with
  | some d, _, _ => return .inl d
  | none, some s, _ => return .inr s
  | none, none, some length => return .inl (← codePoint length)
  | none, none, none => failure

/-- A part of a class, or the range that starts with it. -/
def classRange : Reader CharSet := do
  let part ← classPart
  match ← ahead with
  | '-' :: c :: _ =>
    if c == ']' || c == '-' then return part.elim .char id
    let _ ← next
    match part, ← classPart with
    | .inl first, .inl last => if first ≤ last then return .range first last else failure
    | _, _ => failure
  | _ => return part.elim .char id

/-- The operation on sets that comes next, if one does. -/
def setOperation? : Reader (Option (CharSet → CharSet → CharSet)) := do
  if ← accept "&&" then return some .inter
  if ← accept "--" then return some .diff
  if ← accept "~~" then return some fun a b => .union (a.diff b) (b.diff a)
  return none

mutual

/-- A class after its opening bracket. Hyphens that come first stand for themselves, and so does
a closing bracket that would make the class empty. -/
def charClass : Nat → Reader CharSet
  | 0 => failure
  | fuel + 1 => do
    let negated ← accept "^"
    let hyphens ← many (· == '-')
    let start : CharSet := if hyphens.isEmpty then .none else .char '-'
    let bracket ← if hyphens.isEmpty then accept "]" else pure false
    let set ← classItems fuel id (if bracket then .char ']' else start)
    return if negated then .compl set else set

/-- The parts of a class up to its closing bracket, added to those already read. Operations on
sets are done from the left: `before` is what the ones already read make of the set. -/
def classItems : Nat → (CharSet → CharSet) → CharSet → Reader CharSet
  | 0, _, _ => failure
  | fuel + 1, before, set => do
    if let some op ← setOperation? then return ← classItems fuel (op (before set)) .none
    if ← accept "]" then return before set
    let item ← if ← accept "[" then namedClass <|> charClass fuel else classRange
    classItems fuel before (.union set item)

end

/-! ## Repetitions -/

/-- A number with blanks around it. -/
def decimal : Reader Nat := do
  let _ ← many isBlank
  let digits ← many1 Char.isDigit
  let _ ← many isBlank
  match digitsValue? 10 digits with
  | some n => return n
  | none => failure

/-- The bounds of a counted repetition after its brace. -/
def bounds : Reader (Nat × Option Nat) := do
  let least ← decimal
  if ← accept "\x7d" then return (least, some least)
  expect ","
  if ← accept "\x7d" then return (least, none)
  let most ← decimal
  expect "\x7d"
  if least ≤ most then return (least, some most) else failure

/-- The bounds of the repetition that comes next, if one does. -/
def repetition? : Reader (Option (Nat × Option Nat)) := do
  if ← accept "*" then return some (0, none)
  if ← accept "+" then return some (1, none)
  if ← accept "?" then return some (0, some 1)
  if ← accept "\x7b" then return some (← bounds)
  return none

/-- The repetitions that follow an expression. -/
def repetitions (swapGreed : Bool) : Nat → Expr → Reader Expr
  | 0, _ => failure
  | fuel + 1, e => do
    match ← repetition? with
    | none => return e
    | some (least, most) =>
      let marked ← accept "?"
      repetitions swapGreed fuel (.rep (marked == swapGreed) least most e)

/-! ## Expressions -/

/-- One character of a set, with the case rule in force. -/
def single (set : CharSet) : PatternReader Expr := return .one (← get).rules.ignoreCase set

/-- What the dot stands for. -/
def dot : PatternReader Expr := do
  if (← get).rules.dotAll then single (.compl .none) else single .dot

/-- What follows a backslash. -/
def escaped : PatternReader Expr := do
  let c ← next
  match charEscape? c, setEscape? c, anchorEscape? c, codeLength? c with
  | some d, _, _, _ => single (.char d)
  | none, some s, _, _ => single s
  | none, none, some e, _ => return e
  | none, none, none, some length => single (.char (← codePoint length))
  | none, none, none, none => failure

/-- Change the rules for the rest of the group. -/
def setRules (rules : Rules) : PatternReader Unit := modify fun p => { p with rules := rules }

/-- Open a group whose text is kept, and give its number. No two groups have one name. -/
def openGroup (name : Option String) : PatternReader Nat := do
  let p ← get
  if name.any p.names.contains then failure
  set { p with groups := p.groups + 1, names := name.toList ++ p.names }
  return p.groups + 1

/-- What an opening parenthesis starts. -/
inductive Paren where
  /-- A group whose text is kept, with its name if it has one. -/
  | capturing (name : Option String)
  /-- A group that only holds together. -/
  | plain
  /-- A group with rules of its own. -/
  | flagged (rules : Rules)
  /-- Rules for the rest of the group around it. -/
  | directive (rules : Rules)

/-- The name of a group up to its closing angle bracket. -/
def groupName : Reader String := do
  let first ← next
  unless isAlphabetic first || first == '_' do failure
  let more ← many fun c => isAlphanumeric c || c == '_' || c == '.' || c == '[' || c == ']'
  expect ">"
  return String.ofList (first :: more)

/-- The rules with that of a letter in force or not. -/
def Rules.switch? (on : Bool) (rules : Rules) : Char → Option Rules
  | 'i' => some { rules with ignoreCase := on }
  | 's' => some { rules with dotAll := on }
  | 'U' => some { rules with swapGreed := on }
  | 'u' => if on then some rules else none
  | 'm' | 'R' | 'x' => if on then none else some rules
  | _ => none

/-- The rules between the question mark and the colon or parenthesis: letters to put in force,
and after a hyphen letters not to, each letter once. -/
def directive (rules : Rules) : Reader Paren := do
  let letters ← many fun c => c != ':' && c != ')'
  if letters.isEmpty ∨ letters.getLast? = some '-' ∨ ¬ letters.Nodup then failure
  let inForce := letters.takeWhile (· != '-')
  let changed := do
    let rules ← inForce.foldlM (Rules.switch? true) rules
    (letters.drop (inForce.length + 1)).foldlM (Rules.switch? false) rules
  match changed with
  | some rules =>
    if ← accept ")" then return .directive rules
    expect ":"
    return .flagged rules
  | none => failure

/-- What follows an opening parenthesis and belongs to it. -/
def paren (rules : Rules) : Reader Paren := do
  unless ← accept "?" do return .capturing none
  if ← accept ":" then return .plain
  if ← accept "P<" then return .capturing (← groupName)
  if ← accept "<" then return .capturing (← groupName)
  directive rules

/-- Whether a sequence ends before the text. -/
def endsSequence : List Char → Bool
  | [] => true
  | c :: _ => c == '|' || c == ')'

/-- Whether a character at the start of an expression repeats nothing. -/
def isRepetition (c : Char) : Bool := c == '*' || c == '+' || c == '?' || c == '{'

mutual

/-- Alternatives, up to the end of the group. -/
def alternatives : Nat → PatternReader Expr
  | 0 => failure
  | fuel + 1 => do
    let first ← sequence fuel
    if ← accept "|" then return .alt first (← alternatives fuel) else return first

/-- Expressions one after the other. -/
def sequence : Nat → PatternReader Expr
  | 0 => failure
  | fuel + 1 => do
    if endsSequence (← ahead) then return .empty
    match ← atom fuel with
    | none => sequence fuel
    | some e =>
      let e ← repetitions (← get).rules.swapGreed fuel e
      return .seq e (← sequence fuel)

/-- One expression without its repetitions; `none` for a directive. -/
def atom : Nat → PatternReader (Option Expr)
  | 0 => failure
  | fuel + 1 => do
    let c ← next
    if isRepetition c then failure
    if c == '.' then return some (← dot)
    if c == '^' then return some .startOfText
    if c == '$' then return some .endOfText
    if c == '\\' then return some (← escaped)
    if c == '[' then return some (← single (← charClass fuel))
    if c != '(' then return some (← single (.char c))
    let outside := (← get).rules
    match ← paren outside with
    | .directive rules => setRules rules; return none
    | .capturing name => let n ← openGroup name; return some (.group n (← grouped fuel outside))
    | .plain => return some (← grouped fuel outside)
    | .flagged rules => setRules rules; return some (← grouped fuel outside)

/-- The inside of a group through its closing parenthesis, after which the rules are what they
were outside. -/
def grouped : Nat → Rules → PatternReader Expr
  | 0, _ => failure
  | fuel + 1, outside => do
    let e ← alternatives fuel
    expect ")"
    setRules outside
    return e

end

/-- The pattern that a text writes, ignoring case from the start or not. Each call of a reader
that is not followed by a character leads to one that is, so four calls for each character and
four more are enough. -/
def read? (ignoreCase : Bool) (text : String) : Option Pattern :=
  let reader := (alternatives (4 * text.length + 8)).run ⟨{ ignoreCase }, 0, []⟩
  (reader.readAll? text.toList).map fun (e, p) => ⟨e, p.groups⟩

end Pattern

end MixedMarkup
