import MixedMarkup.Cursor
import MixedMarkup.Style
/-!
# Tokenizers

A tokenizer reads one token at a time from a line cursor and carries a
state from token to token and from line to line. States are values: a
caller may keep one, go back to it, and compare it. A host tokenizer also
tells which element is open, so that another grammar can be embedded in
the element's body.
-/

namespace MixedMarkup

/-- What reading one token yields. -/
structure Step (σ : Type) where
  style : Option Style
  cursor : Cursor
  state : σ

/-- The same token with its state as a state of another kind. -/
def Step.map {σ τ : Type} (f : σ → τ) (s : Step σ) : Step τ := ⟨s.style, s.cursor, f s.state⟩

/-- A line-oriented tokenizer with states in `σ`. -/
structure Tokenizer (σ : Type) where
  /-- The name the tokenizer is known by. -/
  name : String
  /-- The state before the first line, for content whose unindented lines sit at the column. -/
  start : Nat → σ
  /-- Read one token. On a line that is not at its end a token has at least one character. -/
  token : Cursor → σ → Step σ
  /-- The column to which a line that begins with the text is indented, from the state before
  the line; `none` where the line stays as it is. -/
  indent : σ → List Char → Option Nat := fun _ _ => none
  /-- The characters that call for a new indentation when they are typed. -/
  electric : String := ""
  /-- The name of the grammar that read the token before the state. -/
  grammar : σ → String := fun _ => name

/-- A tokenizer of markup in whose elements other grammars may be embedded. -/
structure HostTokenizer (σ : Type) extends Tokenizer σ where
  /-- The innermost open element. -/
  openElement : σ → Option String
  /-- The element whose opening tag was completed by the token before the state. -/
  openedElement : σ → Option String
  /-- Whether two states are taken to be interchangeable. -/
  sameState : σ → σ → Bool

end MixedMarkup
