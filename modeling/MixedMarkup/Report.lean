import MixedMarkup.Document
import MixedMarkup.Text.Quoted
/-!
# Reports

The two written forms of a list of spans: one line for each span, or a
JSON list with two blanks for each level.
-/

namespace MixedMarkup

open Text

/-- A form of report. -/
inductive Report where
  | simple
  | json
  deriving DecidableEq

namespace Report

/-- A span on a line: `line:start-stop grammar style "text"`, with the line counted from one and
a hyphen for no style. -/
def simpleSpan (s : Span) : String :=
  let style := (s.style.map (·.name)).getD "-"
  let text := String.ofList (quotePlain s.text.toList)
  s!"{s.line + 1}:{s.start}-{s.stop} {s.grammar} {style} {text}"

/-- A text in JSON. -/
def jsonText (s : String) : String := String.ofList (quoteJson s.toList)

/-- The fields of a span in JSON. -/
def jsonFields (s : Span) : List (String × String) :=
  [("line", toString s.line), ("start", toString s.start), ("end", toString s.stop),
    ("text", jsonText s.text), ("style", (s.style.map fun s => jsonText s.name).getD "null"),
    ("mode", jsonText s.grammar)]

/-- A span in JSON. -/
def jsonSpan (s : Span) : String :=
  let fields := (jsonFields s).map fun f => "    " ++ jsonText f.1 ++ ": " ++ f.2
  "  \x7b\n" ++ ",\n".intercalate fields ++ "\n  \x7d"

/-- The report on spans. -/
def render : Report → List Span → String
  | simple, spans => "\n".intercalate (spans.map simpleSpan)
  | json, [] => "[]"
  | json, spans => "[\n" ++ ",\n".intercalate (spans.map jsonSpan) ++ "\n]"

end Report

end MixedMarkup
