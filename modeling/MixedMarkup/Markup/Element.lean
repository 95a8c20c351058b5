/-!
# Markup — elements

The two flavours of markup and what they know about elements. The html
flavour ignores the case of names and knows which elements have no body,
which ones end without a closing tag, and which opening tags end an
element that is still open; the xml flavour takes names as they stand and
knows no such rules.
-/

namespace MixedMarkup

namespace Markup

/-- A flavour of markup. -/
inductive Flavour where
  | html
  | xml
  deriving DecidableEq

/-- An open element. -/
structure Element where
  name : String
  /-- The indentation of the line the element was opened on. -/
  indent : Nat
  /-- Whether the opening tag came first on its line. -/
  startsLine : Bool
  /-- Whether lines in the body keep their layout. -/
  keepsLayout : Bool
  deriving DecidableEq

/-- Elements without a body. -/
def voidElements : List String :=
  ["area", "base", "br", "col", "command", "embed", "frame", "hr", "img", "input", "keygen",
    "link", "meta", "param", "source", "track", "wbr", "menuitem"]

/-- Elements whose closing tag may be missing. -/
def selfEndingElements : List String :=
  ["dd", "li", "optgroup", "option", "p", "rp", "rt", "tbody", "td", "tfoot", "th", "tr"]

/-- Elements whose opening tag ends a paragraph. -/
def paragraphEnders : List String :=
  ["address", "article", "aside", "blockquote", "dir", "div", "dl", "fieldset", "footer", "form",
    "h1", "h2", "h3", "h4", "h5", "h6", "header", "hgroup", "hr", "menu", "nav", "ol", "p", "pre",
    "section", "table", "ul"]

/-- The elements whose opening tag ends an open element of the given name. -/
def endersOf : String → List String
  | "dd" | "dt" => ["dd", "dt"]
  | "li" => ["li"]
  | "option" => ["option", "optgroup"]
  | "optgroup" => ["optgroup"]
  | "p" => paragraphEnders
  | "rp" | "rt" => ["rp", "rt"]
  | "tbody" => ["tbody", "tfoot"]
  | "td" | "th" => ["td", "th"]
  | "tfoot" => ["tbody"]
  | "thead" => ["tbody", "tfoot"]
  | "tr" => ["tr"]
  | _ => []

namespace Flavour

/-- The name an element is known by, from its spelling. -/
def elementName : Flavour → List Char → String
  | html, spelling => String.ofList (spelling.map Char.toLower)
  | xml, spelling => String.ofList spelling

/-- Whether the element has no body. -/
def isVoid : Flavour → String → Bool
  | html, name => voidElements.contains name
  | xml, _ => false

/-- Whether the element may end without a closing tag. -/
def endsItself : Flavour → String → Bool
  | html, name => selfEndingElements.contains name
  | xml, _ => false

/-- Whether the opening tag of `next` ends an open `parent`. -/
def grabs : Flavour → String → String → Bool
  | html, parent, next => (endersOf parent).contains next
  | xml, _, _ => false

/-- Whether lines in the body of the element keep their layout. -/
def preservesLayout : Flavour → String → Bool
  | html, name => name == "pre"
  | xml, _ => false

end Flavour

end Markup

end MixedMarkup
