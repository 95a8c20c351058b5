import MixedMarkup.Tokenizer
/-!
# Plain text

The tokenizer of plain text: each line is one token without a style, and
nothing is carried from line to line.
-/

namespace MixedMarkup

namespace Plain

/-- The plain text tokenizer. -/
def tokenizer : Tokenizer Unit where
  name := "text"
  start := fun _ => ()
  token := fun c s => ⟨none, c.readAll, s⟩

end Plain

end MixedMarkup
