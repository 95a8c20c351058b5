import MixedMarkup.Settings.Value
import MixedMarkup.Text.Digits
import MixedMarkup.Text.Reader
/-!
# Settings — paths

A path leads to a place in a configuration: names joined by dots, with
indices in brackets. Writing at a path makes the tables and lists on the
way, whatever stood there before.
-/

namespace MixedMarkup

namespace Settings

open Text Text.Reader

/-- One step of a path. -/
inductive Segment where
  | key (name : String)
  /-- An index, counted from the end if it is negative. -/
  | index (i : Int)
  deriving DecidableEq

/-- A path into a configuration. -/
abbrev Path := List Segment

namespace Path

/-- Whether a character may stand in a name. -/
def isNameChar (c : Char) : Bool := c.isAlphanum || c == '_' || c == '-' || c == ' '

/-- A name. -/
def name : Reader Segment := do return .key (String.ofList (← many1 isNameChar)).toLower

/-- An index after its bracket, with blanks around it. -/
def index : Reader Segment := do
  let _ ← many fun c => c == ' ' || c == '\t'
  let negative ← accept "-"
  let digits ← many1 Char.isDigit
  let _ ← many fun c => c == ' ' || c == '\t'
  expect "]"
  match digitsValue? 10 digits with
  | some n => if n ≤ maxInteger then return .index (if negative then -n else n) else failure
  | none => failure

/-- The steps after the first name. -/
def segments : Nat → Reader Path
  | 0 => failure
  | fuel + 1 => do
    if (← ahead).isEmpty then return []
    let segment ← if ← accept "." then name else do expect "["; index
    return segment :: (← segments fuel)

/-- The path that a text writes. Each step takes a character, so there are fewer steps than
characters. -/
def read? (text : String) : Option Path :=
  let reader : Reader Path := do return (← name) :: (← segments (text.length + 1))
  reader.readAll? text.toList

end Path

namespace Value

/-- The place of an index in a list of the given length. -/
def placeOf (i : Int) (length : Nat) : Nat := if 0 ≤ i then i.toNat else length - i.natAbs

/-- Items up to a place at least, filled up with nothing. -/
def padTo (place : Nat) (items : List Value) : List Value :=
  items ++ List.replicate (place + 1 - items.length) nil

/-- Write at a path: `f` makes the new value from what the last name led to, if anything. -/
def update (f : Option Value → Value) : Path → Option Value → Value
  | [], old => f old
  | .key name :: more, old =>
    let v := old.getD nil
    v.put name (update f more (v.get? name))
  | .index i :: more, old =>
    let items := (old.getD nil).items
    let place := placeOf i items.length
    let items := padTo place items
    list (items.set place (update f more (if more.isEmpty then none else items[place]?)))

end Value

end Settings

end MixedMarkup
