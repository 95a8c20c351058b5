/-!
# Options

The settings that the tokenizers share.
-/

namespace MixedMarkup

/-- How deep lines are indented, and which script types select which grammar. -/
structure Options where
  /-- The columns added for each level of nesting. -/
  indentUnit : Nat := 2
  /-- How many units the later lines of a tag stand past its start. -/
  tagLineFactor : Nat := 1
  /-- Whether the later lines of a tag stand just past its name instead. -/
  tagLinePastName : Bool := true
  /-- The pattern of the script types that select the script grammar. -/
  scriptTypes : String := "(text|application)/(java|ecma)script"
  /-- The patterns of the script types whose body stays markup. -/
  templateTypes : List String := ["/x-handlebars-template", "/x-mustache"]
  deriving DecidableEq

end MixedMarkup
