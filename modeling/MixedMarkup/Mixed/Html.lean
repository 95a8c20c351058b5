import MixedMarkup.Markup.Tokenizer
import MixedMarkup.Mixed.Composite
import MixedMarkup.Plain
import MixedMarkup.Script.Tokenizer
import MixedMarkup.Stylesheet.Tokenizer
/-!
# Mixed documents — html with scripts and styles

The composite of the library's own tokenizers.
-/

namespace MixedMarkup

namespace Mixed

/-- The composite over the library's tokenizers. -/
abbrev HtmlComposite := Composite Markup.State Script.State Stylesheet.State Unit

/-- Html with javascript and css, for script types already read. -/
def html (o : Options) (types : TypePatterns) : HtmlComposite where
  host := Markup.html o
  script := Script.tokenizer o
  style := Stylesheet.tokenizer o
  fallback := Plain.tokenizer
  types := types

/-- Html with javascript and css under the options. -/
def htmlOfOptions (o : Options) : Except Failure HtmlComposite :=
  (TypePatterns.ofOptions o).map (html o)

end Mixed

end MixedMarkup
