import MixedMarkup.Markup.Lexeme
/-!
# Markup — tags

The tag layer. It follows the lexemes of a tag through the stages, gives
words their style, and opens and closes elements.
-/

namespace MixedMarkup

namespace Markup

/-- The state after a lexeme, and the style that its place in the tag gives it, if any. -/
abbrev Outcome := State × Option Style

/-- A lexeme after the name of a closing tag. -/
def stepClose (l : Lexeme) (s : State) : Outcome :=
  if l = .endTag then ({ s.pop with stage := .base }, none)
  else ({ s with stage := .closing }, some .error)

namespace Flavour

variable (f : Flavour)

/-- The open elements left by the opening tag of `next`. -/
def afterGrabs (next : String) : List Element → List Element
  | [] => []
  | parent :: outer => if f.grabs parent.name next then afterGrabs next outer else parent :: outer

/-- The state after the end of the opening tag being read. The element is opened unless the tag
closes it or it has no body. -/
def finishOpening (selfClosed : Bool) (s : State) : State :=
  let name := s.tagName.getD ""
  let startsLine := s.tagColumn == s.lineIndent
  let s := { s with
    stage := .base, tagName := none, tagColumn := 0, context := f.afterGrabs name s.context }
  if selfClosed || f.isVoid name then s
  else { s.push name startsLine (f.preservesLayout name) with opened := true }

/-- A lexeme where an attribute may stand. -/
def stepAttribute (l : Lexeme) (s : State) : Outcome :=
  match l with
  | .word => ({ s with stage := .afterAttribute }, some .attr)
  | .endTag => (f.finishOpening false s, none)
  | .selfClose => (f.finishOpening true s, none)
  | _ => ({ s with stage := .attributes }, some .error)

/-- The open elements that the closing tag of `name` finds: one that may end without a closing
tag of its own ends here. -/
def afterImplied (name : String) : List Element → List Element
  | [] => []
  | top :: outer => if top.name != name && f.endsItself top.name then outer else top :: outer

/-- The word after the delimiter of a closing tag. -/
def stepCloseName (name : String) (s : State) : Outcome :=
  let s := { s with context := f.afterImplied name s.context }
  if s.openElement = some name then ({ s with stage := .closing }, some .tag)
  else ({ s with stage := .closingError }, some .error)

/-- The effect of a lexeme on the tag being read. The cursor stands after the lexeme. -/
def step (l : Lexeme) (c : Cursor) (s : State) : Outcome :=
  match s.stage with
  | .base =>
    match l with
    | .openTag => ({ s with stage := .tagName, tagColumn := c.column }, none)
    | .closeTag => ({ s with stage := .closeName }, none)
    | _ => (s, none)
  | .tagName =>
    if l = .word then
      ({ s with stage := .attributes, tagName := some (f.elementName c.token) }, some .tag)
    else (s, some .error)
  | .closeName =>
    if l = .word then f.stepCloseName (f.elementName c.token) s
    else ({ s with stage := .closingError }, some .error)
  | .closing => stepClose l s
  | .closingError => ((stepClose l s).1, some .error)
  | .attributes => f.stepAttribute l s
  | .afterAttribute =>
    if l = .equals then ({ s with stage := .value }, none)
    else
      let (s, style) := f.stepAttribute l s
      (s, style <|> (if f = .xml then some .error else none))
  | .value =>
    if l = .quoted then ({ s with stage := .afterValue }, none)
    else if l = .word ∧ f = .html then ({ s with stage := .attributes }, some .string)
    else
      let (s, style) := f.stepAttribute l s
      (s, style <|> some .error)
  | .afterValue =>
    if l = .quoted then (s, none) else f.stepAttribute l s

end Flavour

end Markup

end MixedMarkup
