/-!
# Styles

The label of a token. Plain content (text, blanks, punctuation that the
grammar does not set off) carries no style at all.
-/

namespace MixedMarkup

/-- How a token is set off from plain content. -/
inductive Style where
  | tag
  | attr
  | metadata
  | string
  | comment
  | atom
  | number
  | error
  | keyword
  | identifier
  | definition
  | property
  | operator
  | qualifier
  | builtin
  deriving DecidableEq

namespace Style

/-- The name of a style in every output format. -/
def name : Style → String
  | tag => "tag"
  | attr => "attribute"
  | metadata => "meta"
  | string => "string"
  | comment => "comment"
  | atom => "atom"
  | number => "number"
  | error => "error"
  | keyword => "keyword"
  | identifier => "variable"
  | definition => "def"
  | property => "property"
  | operator => "operator"
  | qualifier => "qualifier"
  | builtin => "builtin"

end Style

end MixedMarkup
