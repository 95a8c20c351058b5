import MixedMarkup.Settings.Path
/-!
# TOML files — tables under construction

A table may be described once, by a header or by dotted keys but not by
both, and a key may be set once. A header in double brackets adds a table
to a list of tables; from then on the key of the list stands for its last
table. A draft holds the values read so far, and remembers of each open
table how it came to be.
-/

namespace MixedMarkup

namespace Settings

namespace Toml

/-- How a table came to be. -/
inductive Made where
  /-- By a header of its own. -/
  | header
  /-- By the header of a table inside it. -/
  | implied
  /-- By a dotted key. -/
  | dotted
  /-- By a header in double brackets, which makes a list of tables. -/
  | series
  deriving DecidableEq

/-- The values read so far, and how their open tables came to be. -/
structure Draft where
  root : Value
  made : List (Path × Made)

namespace Draft

/-- The draft without entries. -/
def empty : Draft := ⟨.table [], []⟩

/-- The value at a path. -/
def valueAt? : Value → Path → Option Value
  | v, [] => some v
  | v, .key name :: more => (v.get? name).bind (valueAt? · more)
  | v, .index i :: more => v.items[i.toNat]?.bind (valueAt? · more)

/-- Whether something stands at a path. -/
def has (d : Draft) (path : Path) : Bool := (valueAt? d.root path).isSome

/-- How the table at a path came to be. -/
def made? (d : Draft) (path : Path) : Option Made := d.made.lookup path

/-- The items of the list at a path. -/
def itemsAt (d : Draft) (path : Path) : List Value := ((valueAt? d.root path).getD .nil).items

/-- Set the value at a path. -/
def set (d : Draft) (path : Path) (value : Value) : Draft :=
  { d with root := Value.update (fun _ => value) path (some d.root) }

/-- Note how the table at a path came to be. -/
def note (d : Draft) (path : Path) (made : Made) : Draft :=
  { d with made := (path, made) :: d.made }

/-- Make sure of the table under a key of another one, on the way to a place in it. One that is
missing is made as `made` says; of the others only those that `allowed` names may be entered, and
the last of a list of tables. -/
def enter (made : Made) (allowed : List Made) (at_ : Draft × Path) (key : String) :
    Option (Draft × Path) :=
  let (d, path) := (at_.1, at_.2 ++ [.key key])
  if d.has path then
    match d.made? path with
    | some .series => some (d, path ++ [.index ((d.itemsAt path).length - 1)])
    | some m => if allowed.contains m then some (d, path) else none
    | none => none
  else some ((d.set path (.table [])).note path made, path)

/-- Make sure of the tables that a header leads through to its last key. -/
def enterAll (keys : List String) (d : Draft) : Option (Draft × Path) :=
  keys.dropLast.foldlM (enter .implied [.header, .implied, .dotted]) (d, [])

/-- Describe a table by a header. -/
def openTable (keys : List String) (d : Draft) : Option (Draft × Path) := do
  let (d, outer) ← d.enterAll keys
  let path := outer ++ [.key (keys.getLastD "")]
  if d.has path then
    if d.made? path ≠ some .implied then failure
    return (d.note path .header, path)
  return ((d.set path (.table [])).note path .header, path)

/-- Add a table to a list of tables by a header in double brackets. -/
def openItem (keys : List String) (d : Draft) : Option (Draft × Path) := do
  let (d, outer) ← d.enterAll keys
  let path := outer ++ [.key (keys.getLastD "")]
  if d.has path ∧ d.made? path ≠ some .series then failure
  let items := d.itemsAt path
  let item := path ++ [.index items.length]
  return (((d.set path (.list (items ++ [.table []]))).note path .series).note item .header, item)

/-- Set a key, written with dots or without, in a table. -/
def define (table : Path) (keys : List String) (value : Value) (d : Draft) : Option Draft := do
  let (d, outer) ← keys.dropLast.foldlM (enter .dotted [.implied, .dotted]) (d, table)
  if 1 < keys.length ∧ d.made? outer ≠ some .dotted then failure
  let path := outer ++ [.key (keys.getLastD "")]
  if d.has path then failure
  return d.set path value

end Draft

end Toml

end Settings

end MixedMarkup
