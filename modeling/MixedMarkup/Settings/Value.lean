/-!
# Settings — values

The values of a configuration, and how one is laid over another. Tables
merge key by key; any other value takes the place of what was there. Keys
are in lower case once they are laid over.
-/

namespace MixedMarkup

namespace Settings

/-- The largest integer of a configuration. -/
def maxInteger : Nat := 0x7FFFFFFFFFFFFFFF

/-- The largest unsigned number that a value can stand for. -/
def maxUnsigned : Nat := 0xFFFFFFFFFFFFFFFF

/-- A value of a configuration. -/
inductive Value where
  | nil
  | bool (b : Bool)
  | int (n : Int)
  | float (x : Float)
  | text (s : String)
  | list (items : List Value)
  | table (entries : List (String × Value))

namespace Value

mutual

/-- Whether two values are the same. -/
def decEq : (v w : Value) → Decidable (v = w)
  | nil, w =>
    match w with
    | nil => isTrue rfl
    | bool _ | int _ | float _ | text _ | list _ | table _ => isFalse nofun
  | bool a, w =>
    match w with
    | bool b => decidable_of_iff (a = b) (by rw [bool.injEq])
    | nil | int _ | float _ | text _ | list _ | table _ => isFalse nofun
  | int a, w =>
    match w with
    | int b => decidable_of_iff (a = b) (by rw [int.injEq])
    | nil | bool _ | float _ | text _ | list _ | table _ => isFalse nofun
  | float a, w =>
    match w with
    | float b => decidable_of_iff (a = b) (by rw [float.injEq])
    | nil | bool _ | int _ | text _ | list _ | table _ => isFalse nofun
  | text a, w =>
    match w with
    | text b => decidable_of_iff (a = b) (by rw [text.injEq])
    | nil | bool _ | int _ | float _ | list _ | table _ => isFalse nofun
  | list vs, w =>
    match w with
    | list ws => @decidable_of_iff _ (vs = ws) (by rw [list.injEq]) (decEqItems vs ws)
    | nil | bool _ | int _ | float _ | text _ | table _ => isFalse nofun
  | table es, w =>
    match w with
    | table fs => @decidable_of_iff _ (es = fs) (by rw [table.injEq]) (decEqEntries es fs)
    | nil | bool _ | int _ | float _ | text _ | list _ => isFalse nofun

/-- Whether two lists of values are the same. -/
def decEqItems : (vs ws : List Value) → Decidable (vs = ws)
  | [], [] => isTrue rfl
  | v :: vs, w :: ws =>
    have := decEq v w
    have := decEqItems vs ws
    decidable_of_iff (v = w ∧ vs = ws) (by rw [List.cons.injEq])
  | [], _ :: _ | _ :: _, [] => isFalse nofun

/-- Whether two lists of entries are the same. -/
def decEqEntries : (es fs : List (String × Value)) → Decidable (es = fs)
  | [], [] => isTrue rfl
  | (k, v) :: es, (l, w) :: fs =>
    have := decEq v w
    have := decEqEntries es fs
    decidable_of_iff ((k = l ∧ v = w) ∧ es = fs) (by rw [List.cons.injEq, Prod.mk.injEq])
  | [], _ :: _ | _ :: _, [] => isFalse nofun

end

instance : DecidableEq Value := decEq

/-- The entries of a table; any other value has none. -/
def entries : Value → List (String × Value)
  | table es => es
  | _ => []

/-- The items of a list; any other value has none. -/
def items : Value → List Value
  | list vs => vs
  | _ => []

/-- The entry of a table under a key. -/
def get? (v : Value) (key : String) : Option Value := v.entries.lookup key

/-- Entries with a new value under a key, in its old place or at the end. -/
def putEntry (key : String) (value : Value) : List (String × Value) → List (String × Value)
  | [] => [(key, value)]
  | (k, v) :: es => if k = key then (key, value) :: es else (k, v) :: putEntry key value es

/-- A table with a new value under a key; a value that is no table becomes one. -/
def put (v : Value) (key : String) (value : Value) : Value := table (putEntry key value v.entries)

mutual

/-- A value laid over what was there, if anything was. -/
def overlay : Value → Option Value → Value
  | table entries, target => overlayAll entries (target.getD (table []))
  | value, _ => value

/-- Entries laid over those of a target. Without entries the target stays what it is. -/
def overlayAll : List (String × Value) → Value → Value
  | [], target => target
  | (key, value) :: more, target =>
    let key := key.toLower
    overlayAll more (target.put key (overlay value (target.get? key)))

end

end Value

end Settings

end MixedMarkup
