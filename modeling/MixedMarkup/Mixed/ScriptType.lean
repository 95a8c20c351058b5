import MixedMarkup.Failure
import MixedMarkup.Options
import MixedMarkup.Pattern.Reader
/-!
# Mixed documents — script types

The grammar of a script's body follows from the type declared on the line
of its opening tag: a script without a declared type is javascript, and
so is one whose type matches the script pattern; a type that matches a
template pattern leaves the body to the host, and any other type makes it
plain.
-/

namespace MixedMarkup

namespace Mixed

open Text

/-- How the body of a script is read. -/
inductive BodyKind where
  | script
  /-- The body stays in the host grammar. -/
  | template
  | unknown
  deriving DecidableEq

/-! ## The declared type -/

/-- Whether a character is a quote. -/
def isQuote (c : Char) : Bool := c == '\x22' || c == '\x27'

/-- The part of a text before its last quote. -/
def beforeLastQuote? : List Char → Option (List Char)
  | [] => none
  | c :: text =>
    match beforeLastQuote? text with
    | some value => some (c :: value)
    | none => if isQuote c then some [] else none

/-- The value after an opening quote: at least one character, up to the last quote of the line. -/
def valueAfterQuote? (text : List Char) : Option (List Char) :=
  match beforeLastQuote? (text.takeWhile (· != '\n')) with
  | some (c :: value) => some (c :: value)
  | _ => none

/-- The value of a `type` attribute at the start of a text. -/
def typeAt? (text : List Char) : Option (List Char) := do
  let text ← dropAnyCase? "type".toList text
  match dropBlanks text with
  | '=' :: text =>
    match dropBlanks text with
    | q :: text => if isQuote q then valueAfterQuote? text else none
    | [] => none
  | _ => none

/-- The value of the first `type` attribute on a line. -/
def typeOnLine? : List Char → Option (List Char)
  | [] => none
  | c :: text => typeAt? (c :: text) <|> typeOnLine? text

/-! ## Classification -/

/-- The patterns that script types are compared with. -/
structure TypePatterns where
  script : Pattern
  templates : List Pattern
  deriving DecidableEq

/-- A script type pattern, which ignores case. -/
def readTypePattern (text : String) : Except Failure Pattern :=
  match Pattern.read? true text with
  | some p => .ok p
  | none => .error (.malformedPattern text)

namespace TypePatterns

/-- The patterns of the options, or the first one that is malformed. -/
def ofOptions (o : Options) : Except Failure TypePatterns := do
  let script ← readTypePattern o.scriptTypes
  let templates ← o.templateTypes.mapM readTypePattern
  return ⟨script, templates⟩

/-- The patterns of the default options, which are well formed. -/
def standard : TypePatterns :=
  match ofOptions {} with
  | .ok types => types
  | .error _ => ⟨⟨.empty, 0⟩, []⟩

/-- The kind of a script with the declared type, if it declares one. -/
def kindOf (t : TypePatterns) : Option (List Char) → BodyKind
  | none => .script
  | some declared =>
    if t.script.isMatch declared then .script
    else if t.templates.any (·.isMatch declared) then .template
    else .unknown

/-- The kind of the script whose opening tag ends on the line. -/
def kindOnLine (t : TypePatterns) (line : List Char) : BodyKind :=
  t.kindOf (typeOnLine? line)

end TypePatterns

end Mixed

end MixedMarkup
