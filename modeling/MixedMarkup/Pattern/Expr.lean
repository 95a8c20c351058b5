import MixedMarkup.Pattern.CharSet
/-!
# Patterns — expressions and their matches

A pattern matches at a place by trying its choices in order of
preference: the first alternative before the later ones, one more
repetition before none, or none before one more where the repetition is
lazy. Of all matches, the one that starts first wins, and of those that
start there the most preferred one. A place is handed on to what has to
match after it, so the first way that works for the whole pattern is the
answer.
-/

namespace MixedMarkup

namespace Pattern

open Text

/-- A pattern. -/
inductive Expr where
  /-- The empty text. -/
  | empty
  /-- One character of a set. -/
  | one (ignoreCase : Bool) (set : CharSet)
  | startOfText
  | endOfText
  /-- A place between a word character and another one, or any other place. -/
  | wordBoundary (negated : Bool)
  | seq (a b : Expr)
  | alt (a b : Expr)
  /-- At least `least` repetitions, and at most `most` where there is a bound. -/
  | rep (greedy : Bool) (least : Nat) (most : Option Nat) (body : Expr)
  /-- A group whose text is kept under a number. -/
  | group (number : Nat) (body : Expr)
  deriving DecidableEq

/-- A text kept by a group, as the places of its ends. -/
structure Capture where
  number : Nat
  start : Nat
  stop : Nat
  deriving DecidableEq

/-- A place in a text. -/
structure Place where
  /-- The number of characters before the place. -/
  offset : Nat
  /-- The character before the place. -/
  previous : Option Char
  rest : List Char
  /-- What the groups have kept, the latest first. -/
  captures : List Capture

namespace Place

/-- The start of a text. -/
def ofText (text : List Char) : Place := ⟨0, none, text, []⟩

/-- The place after one more character. -/
def step (p : Place) (c : Char) (rest : List Char) : Place :=
  { p with offset := p.offset + 1, previous := some c, rest := rest }

/-- Keep the text from `start` to the place under a number. -/
def keep (number start : Nat) (p : Place) : Place :=
  { p with captures := ⟨number, start, p.offset⟩ :: p.captures }

/-- Whether the place lies between a word character and another one. -/
def onBoundary (p : Place) : Bool := p.previous.any isWord != p.rest.head?.any isWord

end Place

/-- What has to match after a place; the answer is the end of the whole match. -/
abbrev Rest := Place → Option Place

/-- The first answer, or the second where there is none; the other way round if not `greedy`. -/
def prefer (greedy : Bool) (more stop : Unit → Option Place) : Option Place :=
  if greedy then more () <|> stop () else stop () <|> more ()

/-- Exactly `n` repetitions of a body. -/
def exactly (body : Place → Rest → Option Place) : Nat → Place → Rest → Option Place
  | 0, p, k => k p
  | n + 1, p, k => body p fun q => exactly body n q k

/-- At most `n` repetitions of a body. -/
def atMost (body : Place → Rest → Option Place) (greedy : Bool) :
    Nat → Place → Rest → Option Place
  | 0, p, k => k p
  | n + 1, p, k =>
    prefer greedy (fun _ => body p fun q => atMost body greedy n q k) (fun _ => k p)

/-- One repetition of a body or more. A repetition that matches nothing is the last one; the
others shorten the text, so the length of the text bounds their number. -/
def atLeastOne (body : Place → Rest → Option Place) (greedy : Bool) :
    Nat → Place → Rest → Option Place
  | 0, _, _ => none
  | bound + 1, p, k =>
    body p fun q =>
      if q.rest.length < p.rest.length then
        prefer greedy (fun _ => atLeastOne body greedy bound q k) (fun _ => k q)
      else k q

/-- Repetitions of a body without an upper bound. -/
def unbounded (body : Place → Rest → Option Place) (greedy : Bool) (least : Nat)
    (p : Place) (k : Rest) : Option Place :=
  match least with
  | 0 =>
    prefer greedy (fun _ => atLeastOne body greedy (p.rest.length + 1) p k) (fun _ => k p)
  | n + 1 => exactly body n p fun q => atLeastOne body greedy (q.rest.length + 1) q k

namespace Expr

/-- Match at a place, and then what has to follow. -/
def run : Expr → Place → Rest → Option Place
  | empty, p, k => k p
  | one ignoreCase set, p, k =>
    match p.rest with
    | [] => none
    | c :: cs => if set.has ignoreCase c then k (p.step c cs) else none
  | startOfText, p, k => if p.previous.isNone then k p else none
  | endOfText, p, k => if p.rest.isEmpty then k p else none
  | wordBoundary negated, p, k => if p.onBoundary != negated then k p else none
  | seq a b, p, k => a.run p fun q => b.run q k
  | alt a b, p, k => a.run p k <|> b.run p k
  | rep greedy least (some most) body, p, k =>
    exactly body.run least p fun q => atMost body.run greedy (most - least) q k
  | rep greedy least none body, p, k => unbounded body.run greedy least p k
  | group number body, p, k => body.run p fun q => k (q.keep number p.offset)

/-- The end of the preferred match that starts at a place. -/
def matchAt (e : Expr) (p : Place) : Option Place := e.run p some

/-- Whether there is a match at a place or after it. -/
def matchFrom (e : Expr) : List Char → Place → Bool
  | [], p => (e.matchAt p).isSome
  | c :: cs, p => (e.matchAt p).isSome || e.matchFrom cs (p.step c cs)

end Expr

end Pattern

/-- A pattern with its number of groups. -/
structure Pattern where
  expr : Pattern.Expr
  groups : Nat
  deriving DecidableEq

namespace Pattern

/-- Whether a text has a match. -/
def isMatch (p : Pattern) (text : List Char) : Bool := p.expr.matchFrom text (.ofText text)

/-- The match at the start of a text: the text of the whole match, and of each group that took
part in it. -/
structure Found where
  whole : List Char
  groups : List (Option (List Char))

/-- The text that a capture stands for. -/
def Capture.text (c : Capture) (text : List Char) : List Char :=
  (text.drop c.start).take (c.stop - c.start)

/-- The preferred match at the start of a text. -/
def matchStart? (p : Pattern) (text : List Char) : Option Found :=
  (p.expr.matchAt (.ofText text)).map fun place =>
    { whole := text.take place.offset
      groups := (List.range p.groups).map fun i =>
        (place.captures.find? (·.number == i + 1)).map (·.text text) }

end Pattern

end MixedMarkup
