/-!
# Failures

What can go wrong around tokenizing: a name or MIME type that nothing
answers to, a tokenizer that does not move, a script type pattern that
cannot be read. Malformed markup is no failure; it shows as styled spans.
-/

namespace MixedMarkup

/-- The causes of failure outside the configuration. -/
inductive Failure where
  /-- No tokenizer has this name. -/
  | unknownName (name : String)
  /-- No tokenizer is bound to this MIME type. -/
  | unknownMime (mime : String)
  /-- A tokenizer read nothing at this line and byte column, both counted from one. -/
  | noProgress (line column : Nat) (grammar : String)
  /-- A script type pattern is malformed. -/
  | malformedPattern (pattern : String)
  deriving DecidableEq

namespace Failure

/-- The text shown for a failure. -/
def message : Failure → String
  | unknownName name => s!"Mode '{name}' not found"
  | unknownMime mime => s!"No mode registered for MIME type '{mime}'"
  | noProgress line column grammar =>
    s!"Mode '{grammar}' failed to advance the stream at line {line}, column {column}"
  | malformedPattern pattern => s!"Invalid script type pattern '{pattern}'"

end Failure

end MixedMarkup
