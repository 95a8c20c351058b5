import MixedMarkup.Options
import MixedMarkup.Settings.Value
import MixedMarkup.Text.Digits
import MixedMarkup.Text.Shortest
/-!
# Settings — from values to options

A merged configuration is read into options only after all layers are
merged, so a value that another one has replaced is never looked at. A
value of a neighbouring kind is converted: numbers, booleans and texts
stand for each other where their meaning is plain. An integer has to fit
the 64 bits of an unsigned number, while a float is rounded, and cut to
what fits.
-/

namespace MixedMarkup

namespace Settings

/-- What can go wrong with a configuration. -/
inductive Problem where
  /-- A path is malformed. -/
  | pathSyntax (path : String)
  /-- A file that has to be there is missing. -/
  | missingFile (name : String)
  /-- A file is malformed. -/
  | malformedFile (name : String)
  /-- An indentation unit does not fit into 63 bits. -/
  | unitTooLarge (unit : Nat)
  /-- A value cannot be converted to the kind that is wanted. -/
  | wrongKind (wanted : String)
  /-- A table or a list is wanted, and something else or nothing is there. -/
  | wrongShape (wanted : String)
  deriving DecidableEq

namespace Problem

/-- The text shown for a problem. -/
def message : Problem → String
  | pathSyntax path => s!"malformed path '{path}'"
  | missingFile name => s!"configuration file '{name}' not found"
  | malformedFile name => s!"malformed configuration file '{name}'"
  | unitTooLarge unit => s!"indent unit {unit} is too large"
  | wrongKind wanted => s!"invalid type: expected {wanted}"
  | wrongShape wanted => s!"expected {wanted}"

end Problem

/-- The value of a number of at most 64 bits, written in decimal digits after a plus sign or
without one. -/
def unsignedOfText? (text : String) : Option Nat :=
  let digits := match text.toList with
    | '+' :: digits => digits
    | digits => digits
  if digits.isEmpty then none else (Text.digitsValue? 10 digits).filter (· ≤ maxUnsigned)

/-- The words that stand for yes. -/
def yesWords : List String := ["true", "on", "yes"]

/-- The words that stand for no. -/
def noWords : List String := ["false", "off", "no"]

/-- The unsigned number of 64 bits nearest to a float, and the greater one halfway between two.
What is no number counts as zero. -/
def nearestUnsigned (x : Float) : Nat :=
  let whole := x.toUInt64
  min (if 0.5 ≤ x - whole.toFloat then whole.toNat + 1 else whole.toNat) maxUnsigned

namespace Value

/-- The number that a value stands for. -/
def toUnsigned : Value → Except Problem Nat
  | int n =>
    if 0 ≤ n ∧ n ≤ maxUnsigned then .ok n.toNat else .error (.wrongKind "an unsigned integer")
  | float x => .ok (nearestUnsigned x)
  | bool b => .ok b.toNat
  | text s =>
    if yesWords.contains s.toLower then .ok 1
    else if noWords.contains s.toLower then .ok 0
    else
      match unsignedOfText? s with
      | some n => .ok n
      | none => .error (.wrongKind "an unsigned integer")
  | _ => .error (.wrongKind "an unsigned integer")

/-- The truth value that a value stands for. -/
def toBool : Value → Except Problem Bool
  | bool b => .ok b
  | int n => .ok (n != 0)
  | float x => .ok (x != 0)
  | text s =>
    if s.toLower == "1" || yesWords.contains s.toLower then .ok true
    else if s.toLower == "0" || noWords.contains s.toLower then .ok false
    else .error (.wrongKind "a boolean")
  | _ => .error (.wrongKind "a boolean")

/-- The text that a value stands for. -/
def toText : Value → Except Problem String
  | text s => .ok s
  | int n => .ok (toString n)
  | float x => .ok (Text.floatText x)
  | bool true => .ok "true"
  | bool false => .ok "false"
  | _ => .error (.wrongKind "a string")

/-- The texts that a list stands for. -/
def toTexts : Value → Except Problem (List String)
  | list items => items.mapM toText
  | _ => .error (.wrongShape "a list")

/-- The value under a key, converted, if there is one. -/
def field? {α : Type} (convert : Value → Except Problem α) (table : Value) (key : String) :
    Except Problem (Option α) :=
  match table.get? key with
  | some v => (convert v).map some
  | none => .ok none

/-- A value that has to be there. -/
def required {α : Type} (key : String) : Option α → Except Problem α
  | some a => .ok a
  | none => .error (.wrongShape key)

/-- The table under a key, which has to be there. -/
def subtable (root : Value) (key : String) : Except Problem Value :=
  match root.get? key with
  | some (table entries) => .ok (table entries)
  | _ => .error (.wrongShape key)

/-- The options that a merged configuration stands for. In each section the values that are
there are converted before one that is missing is noticed. -/
def toOptions (root : Value) : Except Problem Options := do
  let indent ← root.subtable "indent"
  let unit ← indent.field? toUnsigned "unit"
  let factor ← indent.field? toUnsigned "multiline_tag_factor"
  let pastName ← indent.field? toBool "multiline_tag_past_tag"
  let unit ← required "unit" unit
  let factor ← required "multiline_tag_factor" factor
  let pastName ← required "multiline_tag_past_tag" pastName
  let script ← root.subtable "script"
  let scriptTypes ← script.field? toText "javascript_types"
  let templateTypes ← script.field? toTexts "template_types"
  let scriptTypes ← required "javascript_types" scriptTypes
  let templateTypes ← required "template_types" templateTypes
  return ⟨unit, factor, pastName, scriptTypes, templateTypes⟩

end Value

end Settings

end MixedMarkup
