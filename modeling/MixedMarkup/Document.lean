import MixedMarkup.Failure
import MixedMarkup.Tokenizer
/-!
# Documents

A document is read line by line with one state carried along. On each
line the tokenizer is called until the line is used up, and each call
yields a span. A call that leaves as much of the line as it found ends the
reading with a failure, so the reading of a line ends for every tokenizer.
-/

namespace MixedMarkup

open Text

/-- One token of a document. -/
structure Span where
  /-- The line, counted from zero. -/
  line : Nat
  /-- The byte offset of the first character. -/
  start : Nat
  /-- The byte offset after the last character. -/
  stop : Nat
  text : String
  style : Option Style
  /-- The grammar that read the span. -/
  grammar : String
  deriving DecidableEq

/-- The spans read so far, the state after them, and the failure that stopped the reading. -/
structure Reading (σ : Type) where
  spans : List Span
  state : σ
  failure : Option Failure

namespace Tokenizer

variable {σ : Type}

/-- The span of the token just read on line `index`. -/
def spanOf (t : Tokenizer σ) (index : Nat) (s : Step σ) : Span where
  line := index
  start := s.cursor.start
  stop := s.cursor.pos
  text := String.ofList s.cursor.token
  style := s.style
  grammar := t.grammar s.state

/-- Read the line `index` from the cursor on. -/
def readFrom (t : Tokenizer σ) (index : Nat) (c : Cursor) (state : σ) : Reading σ :=
  if c.atEnd then ⟨[], state, none⟩
  else
    let step := t.token c.beginToken state
    if step.cursor.rest.length < c.rest.length then
      let tail := readFrom t index step.cursor step.state
      { tail with spans := t.spanOf index step :: tail.spans }
    else
      ⟨[], step.state, some (.noProgress (index + 1) (c.pos + 1) (t.grammar step.state))⟩
termination_by c.rest.length

/-- Read one line. -/
def readLine (t : Tokenizer σ) (index : Nat) (line : List Char) (state : σ) : Reading σ :=
  t.readFrom index (.ofLine line) state

/-- Read lines, the first of which has the given index, up to the first failure. -/
def readLines (t : Tokenizer σ) (index : Nat) : List (List Char) → σ → Reading σ
  | [], state => ⟨[], state, none⟩
  | line :: lines, state =>
    let first := t.readLine index line state
    match first.failure with
    | some _ => first
    | none =>
      let tail := t.readLines (index + 1) lines first.state
      { tail with spans := first.spans ++ tail.spans }

end Tokenizer

/-- Cut a text at its line feeds. -/
def splitLines : List Char → List (List Char)
  | [] => [[]]
  | c :: cs =>
    if c == '\n' then [] :: splitLines cs
    else
      match splitLines cs with
      | [] => [[c]]
      | line :: lines => (c :: line) :: lines

/-- The line without one carriage return at its end. -/
def dropReturn (line : List Char) : List Char :=
  if line.getLast? == some '\r' then line.dropLast else line

/-- Finish lines: one that ended in a line feed loses one carriage return, and what follows the
last line feed is a line only if there is something of it. -/
def finishLines : List (List Char) → List (List Char)
  | [] => []
  | [last] => if last.isEmpty then [] else [last]
  | line :: lines => dropReturn line :: finishLines lines

/-- The lines of a source text. -/
def linesOf (source : String) : List (List Char) := finishLines (splitLines source.toList)

namespace Tokenizer

variable {σ : Type}

/-- All spans of a source text, or the failure that the reading met. -/
def highlight (t : Tokenizer σ) (source : String) : Except Failure (List Span) :=
  let reading := t.readLines 0 (linesOf source) (t.start 0)
  match reading.failure with
  | some failure => .error failure
  | none => .ok reading.spans

end Tokenizer

end MixedMarkup
