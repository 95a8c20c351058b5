import MixedMarkup.Mixed.ClosingTag
import MixedMarkup.Mixed.ScriptType
/-!
# Mixed documents — the composite tokenizer

A composite reads markup with a host tokenizer and hands the bodies of
scripts and styles to embedded ones. The host's state is kept at all
times; while a region is open it stands as the opening tag left it. The
grammar changes between tokens only. A region is entered when the host has
just completed the opening tag of a script or style element, and left when
the cursor stands on the region's closing tag; embedded tokens are cut
short of that tag, so the cursor does come to stand on it.
-/

namespace MixedMarkup

namespace Mixed

/-- The grammars of a composite. -/
inductive Grammar where
  | host
  | script
  | style
  /-- The body of a script of unknown type. -/
  | unknownScript
  deriving DecidableEq

/-- An open region, with the state of its tokenizer. -/
inductive Region (σ κ : Type) where
  | script (state : σ)
  | style (state : κ)
  /-- A script of unknown type, whose tokenizer carries no state from token to token. -/
  | unknown
  deriving DecidableEq

namespace Region

variable {σ κ : Type}

/-- The element whose body the region is. -/
def element : Region σ κ → EmbeddingElement
  | script _ | unknown => .script
  | style _ => .style

/-- The grammar of the region. -/
def grammar : Region σ κ → Grammar
  | script _ => .script
  | style _ => .style
  | unknown => .unknownScript

end Region

/-- The state of a composite. -/
structure State (η σ κ : Type) where
  host : η
  /-- The open region, if there is one. -/
  region : Option (Region σ κ)
  /-- The grammar that read the last token. -/
  last : Grammar
  deriving DecidableEq

/-- The grammar that reads the next token. -/
def State.active {η σ κ : Type} (s : State η σ κ) : Grammar := s.region.elim .host Region.grammar

/-- The outcome of comparing two states. -/
inductive Comparison where
  | same
  | different
  /-- Only reading on can tell. -/
  | undecided
  deriving DecidableEq

/-- A host tokenizer with the tokenizers of its regions. -/
structure Composite (η σ κ φ : Type) where
  host : HostTokenizer η
  script : Tokenizer σ
  style : Tokenizer κ
  /-- The tokenizer of scripts of unknown type. -/
  fallback : Tokenizer φ
  types : TypePatterns

namespace Composite

variable {η σ κ φ : Type} (m : Composite η σ κ φ)

/-- The state before the first line. -/
def start (baseIndent : Nat) : State η σ κ := ⟨m.host.start baseIndent, none, .host⟩

/-- The column of unindented content in a region opened in a host state. -/
def regionIndent (host : η) : Nat := (m.host.indent host []).getD 0

/-- The region that the opening tag of an element on the line opens. -/
def regionOf? (element : String) (line : List Char) (host : η) : Option (Region σ κ) :=
  let name := element.toList.map Char.toLower
  if name = EmbeddingElement.script.name.toList then
    match m.types.kindOnLine line with
    | .script => some (.script (m.script.start (m.regionIndent host)))
    | .template => none
    | .unknown => some .unknown
  else if name = EmbeddingElement.style.name.toList then
    some (.style (m.style.start (m.regionIndent host)))
  else none

/-- Read a token with the host, and open the region that the token leads to. -/
def hostToken (c : Cursor) (host : η) : Step (State η σ κ) :=
  let step := m.host.token c host
  let region :=
    (m.host.openedElement step.state).bind fun e => m.regionOf? e step.cursor.line step.state
  ⟨step.style, step.cursor, ⟨step.state, region, .host⟩⟩

/-- Read a token with the tokenizer of a region. -/
def regionToken (c : Cursor) : Region σ κ → Step (Region σ κ)
  | .script s => (m.script.token c s).map .script
  | .style s => (m.style.token c s).map .style
  | .unknown => (m.fallback.token c (m.fallback.start 0)).map fun _ => .unknown

/-- Read one token. -/
def token (c : Cursor) (s : State η σ κ) : Step (State η σ κ) :=
  match s.region with
  | none => m.hostToken c s.host
  | some r =>
    if r.element.closesAt c.rest then m.hostToken c s.host
    else
      let step := m.regionToken c r
      ⟨step.style, r.element.trim step.cursor, ⟨s.host, some step.state, r.grammar⟩⟩

/-- Whether a line begins with a closing tag, of whatever element. -/
def startsClosing (text : List Char) : Bool := "</".toList.isPrefixOf (Text.dropBlanks text)

/-- The indentation of a line that begins with the text. A closing tag is the host's matter, and
a script of unknown type starts at the margin. -/
def indent (s : State η σ κ) (text : List Char) : Option Nat :=
  match s.region with
  | none => m.host.indent s.host text
  | some r =>
    if startsClosing text then m.host.indent s.host text
    else
      match r with
      | .script state => m.script.indent state text
      | .style state => m.style.indent state text
      | .unknown => some 0

/-- The name of the tokenizer of a grammar. -/
def grammarName : Grammar → String
  | .host => m.host.name
  | .script => m.script.name
  | .style => m.style.name
  | .unknownScript => m.fallback.name

/-- Compare two states by what they would make of further lines. -/
def compare (a b : State η σ κ) : Comparison :=
  if a.active = b.active then
    match a.region with
    | some (.script _) | some (.style _) => .undecided
    | some .unknown | none => if m.host.sameState a.host b.host then .same else .different
  else .different

/-- The composite as a tokenizer. -/
def tokenizer : Tokenizer (State η σ κ) where
  name := "htmlmixed"
  start := m.start
  token := m.token
  indent := m.indent
  electric := "/\x7b\x7d:"
  grammar := fun s => m.grammarName s.last

end Composite

end Mixed

end MixedMarkup
