import MixedMarkup.Document
import MixedMarkup.Mixed.Html
import Std.Data.TreeMap
/-!
# The registry

Tokenizers by name, and the names that MIME types are bound to. A MIME
type is looked up in lower case, and listings come in the order of their
keys.
-/

namespace MixedMarkup

/-- A tokenizer whose states are nobody else's concern. -/
structure Highlighter where
  name : String
  highlight : String → Except Failure (List Span)

/-- A tokenizer as a highlighter. -/
def Tokenizer.toHighlighter {σ : Type} (t : Tokenizer σ) : Highlighter := ⟨t.name, t.highlight⟩

/-- Highlighters by name, and names by MIME type. -/
structure Registry where
  highlighters : Std.TreeMap String Highlighter
  mimes : Std.TreeMap String String

namespace Registry

/-- The registry without entries. -/
def empty : Registry := ⟨∅, ∅⟩

/-- Register a highlighter under its own name, in place of an earlier one. -/
def register (h : Highlighter) (r : Registry) : Registry :=
  { r with highlighters := r.highlighters.insert h.name h }

/-- Bind a MIME type to a name. -/
def defineMime (mime name : String) (r : Registry) : Registry :=
  { r with mimes := r.mimes.insert mime name }

/-- The highlighter with a name. -/
def find? (r : Registry) (name : String) : Option Highlighter := r.highlighters[name]?

/-- The highlighter bound to a MIME type, which may be spelled in any case. -/
def findByMime? (r : Registry) (mime : String) : Option Highlighter :=
  r.mimes[mime.toLower]?.bind r.find?

/-- Whether a name is registered. -/
def has (r : Registry) (name : String) : Bool := r.highlighters.contains name

/-- The registered names in order. -/
def names (r : Registry) : List String := r.highlighters.keys

/-- The MIME types in order, each with the name it is bound to. -/
def mimeTypes (r : Registry) : List (String × String) := r.mimes.toList

/-- Highlight a source text with the tokenizer of a name. -/
def highlight (r : Registry) (name source : String) : Except Failure (List Span) :=
  match r.find? name with
  | some h => h.highlight source
  | none => .error (.unknownName name)

/-- Highlight a source text with the tokenizer bound to a MIME type. -/
def highlightMime (r : Registry) (mime source : String) : Except Failure (List Span) :=
  match r.findByMime? mime with
  | some h => h.highlight source
  | none => .error (.unknownMime mime)

/-- The highlighters of the library under the options. -/
def standardHighlighters (o : Options) (types : Mixed.TypePatterns) : List Highlighter :=
  [(Mixed.html o types).tokenizer.toHighlighter, (Markup.html o).toHighlighter,
    (Markup.xml o).toHighlighter, (Script.tokenizer o).toHighlighter,
    (Stylesheet.tokenizer o).toHighlighter, Plain.tokenizer.toHighlighter]

/-- The MIME types of the library's tokenizers. -/
def standardMimes : List (String × String) :=
  [("text/html", "htmlmixed"), ("application/xml", "xml"), ("text/xml", "xml"),
    ("text/javascript", "javascript"), ("application/javascript", "javascript"),
    ("text/css", "css"), ("text/plain", "text")]

/-- The registry of the library's tokenizers under the options. -/
def standard (o : Options) : Except Failure Registry := do
  let types ← Mixed.TypePatterns.ofOptions o
  let r := (standardHighlighters o types).foldl (fun r h => r.register h) empty
  return standardMimes.foldl (fun r m => r.defineMime m.1 m.2) r

end Registry

end MixedMarkup
