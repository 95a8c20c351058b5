import MixedMarkup.Settings.Layering
import Mathlib.Tactic.Choose
/-!
# Layered settings — the last to set a key decides it

Five keys make the options. Whatever layers and overrides a configuration
has, each of the five converts the value that was set for it last: by the
last override of the key, else by the last layer that sets it, else by the
defaults. A value that was replaced is never converted.

Tables merge, so an empty table laid over a value sets nothing, and a
table laid over a table is neither of the two. This is the reason why the
configuration is compared with the last value only up to `Value.Alike`:
no table converts, whatever its entries.

All this is about the entries of the layers, whatever values they have and
whichever reader they come from.
-/

namespace MixedMarkup

namespace Settings

instance decidableEqOk {α : Type} [DecidableEq α] (x : Except Problem α) (a : α) :
    Decidable (x = .ok a) :=
  match x with
  | .ok b => decidable_of_iff (b = a) (by rw [Except.ok.injEq])
  | .error _ => isFalse nofun

/-! ## The keys -/

/-- The keys of the options. -/
inductive Key where
  | indentUnit
  | tagLineFactor
  | tagLinePastName
  | scriptTypes
  | templateTypes
  deriving DecidableEq

namespace Key

variable {P : Key → Prop}

theorem forall_iff : (∀ k, P k) ↔ P .indentUnit ∧ P .tagLineFactor ∧ P .tagLinePastName ∧
    P .scriptTypes ∧ P .templateTypes :=
  ⟨fun h => ⟨h _, h _, h _, h _, h _⟩, fun ⟨h₁, h₂, h₃, h₄, h₅⟩ k => by cases k <;> assumption⟩

/-- The table that a key stands in. -/
def table : Key → String
  | indentUnit | tagLineFactor | tagLinePastName => "indent"
  | scriptTypes | templateTypes => "script"

/-- The name of a key in its table. -/
def name : Key → String
  | indentUnit => "unit"
  | tagLineFactor => "multiline_tag_factor"
  | tagLinePastName => "multiline_tag_past_tag"
  | scriptTypes => "javascript_types"
  | templateTypes => "template_types"

/-- A key, as an override writes it. -/
def text (k : Key) : String := k.table ++ "." ++ k.name

/-- The place of a key in a configuration. -/
def path (k : Key) : Path := [.key k.table, .key k.name]

theorem read?_text (k : Key) : Path.read? k.text = some k.path := by
  cases k <;> decide +kernel

/-- Keys of different names are different, also across the tables. -/
theorem name_injective {k k' : Key} (h : k.name = k'.name) : k = k' := by
  cases k <;> cases k' <;> first | rfl | exact absurd h (by decide)

/-- The value of a key before anything is laid over it. -/
def default : Key → Value
  | indentUnit => .int ({} : Options).indentUnit
  | tagLineFactor => .int ({} : Options).tagLineFactor
  | tagLinePastName => .bool ({} : Options).tagLinePastName
  | scriptTypes => .text ({} : Options).scriptTypes
  | templateTypes => .list (({} : Options).templateTypes.map .text)

/-- The value of a key converts to what the options hold for it. -/
def Gives (v : Value) (o : Options) : Key → Prop
  | indentUnit => v.toUnsigned = .ok o.indentUnit
  | tagLineFactor => v.toUnsigned = .ok o.tagLineFactor
  | tagLinePastName => v.toBool = .ok o.tagLinePastName
  | scriptTypes => v.toText = .ok o.scriptTypes
  | templateTypes => v.toTexts = .ok o.templateTypes

instance (v : Value) (o : Options) (k : Key) : Decidable (k.Gives v o) :=
  match k with
  | indentUnit => inferInstanceAs (Decidable (v.toUnsigned = .ok o.indentUnit))
  | tagLineFactor => inferInstanceAs (Decidable (v.toUnsigned = .ok o.tagLineFactor))
  | tagLinePastName => inferInstanceAs (Decidable (v.toBool = .ok o.tagLinePastName))
  | scriptTypes => inferInstanceAs (Decidable (v.toText = .ok o.scriptTypes))
  | templateTypes => inferInstanceAs (Decidable (v.toTexts = .ok o.templateTypes))

end Key

namespace Value

variable {v w config : Value} {es : List (String × Value)} {k : Key} {o : Options}

/-! ## Entries -/

theorem lookup_cons_entry (key key' : String) :
    ((key, v) :: es).lookup key' = if key' = key then some v else es.lookup key' := by
  by_cases h : key' = key
  · simp [h]
  · simp [List.lookup_cons, h, beq_false_of_ne h]

theorem lookup_putEntry (key key' : String) :
    (putEntry key v es).lookup key' = if key' = key then some v else es.lookup key' := by
  induction es with
  | nil => exact lookup_cons_entry key key'
  | cons e es ih =>
    obtain ⟨old, w⟩ := e
    rw [putEntry, lookup_cons_entry]
    split
    · next hold => subst hold; rw [lookup_cons_entry]; split <;> rfl
    · next hold =>
      rw [lookup_cons_entry, ih]
      by_cases h : key' = old
      · rw [if_pos h, if_neg (h ▸ hold), if_pos h]
      · rw [if_neg h, if_neg h]

@[simp] theorem get?_put (key key' : String) :
    (config.put key v).get? key' = if key' = key then some v else config.get? key' :=
  lookup_putEntry key key'

/-- The value that entries hold under a key, whatever the case of its letters. -/
def entryOf? (name : String) (es : List (String × Value)) : Option Value :=
  (es.find? fun e => e.1.toLower = name).map (·.2)

theorem entryOf?_cons (name key : String) :
    entryOf? name ((key, v) :: es) = if key.toLower = name then some v else entryOf? name es := by
  simp only [entryOf?, List.find?_cons]
  split <;> simp_all

theorem entryOf?_eq_none {name : String} (h : name ∉ es.map (·.1.toLower)) :
    entryOf? name es = none := by
  simp only [entryOf?, Option.map_eq_none_iff, List.find?_eq_none, decide_eq_true_eq]
  exact fun e he heq => h (heq ▸ List.mem_map_of_mem he)

/-- **Tables merge key by key.** Entries laid over a table change the
values under their own keys, and no others. -/
theorem get?_overlayAll (hes : (es.map (·.1.toLower)).Nodup) (target : Value) (name : String) :
    (overlayAll es target).get? name =
      ((entryOf? name es).map fun v => overlay v (target.get? name)).or (target.get? name) := by
  induction es generalizing target with
  | nil => rfl
  | cons e es ih =>
    obtain ⟨key, v⟩ := e
    obtain ⟨hkey, hes⟩ := List.nodup_cons.mp hes
    rw [overlayAll, ih hes, get?_put, entryOf?_cons]
    by_cases h : key.toLower = name
    · subst h
      rw [entryOf?_eq_none hkey, if_pos rfl, if_pos rfl]
      rfl
    · rw [if_neg h, if_neg (Ne.symm h)]

/-! ## Tables convert to nothing -/

/-- Values that convert alike: they are equal, or both are tables. -/
def Alike (v w : Value) : Prop := v = w ∨ ∃ es fs, v = table es ∧ w = table fs

theorem Alike.gives_iff (h : Alike v w) (k : Key) : k.Gives v o ↔ k.Gives w o := by
  obtain rfl | ⟨es, fs, rfl, rfl⟩ := h
  · rfl
  · cases k <;> simp [Key.Gives, toUnsigned, toBool, toText, toTexts]

theorem exists_overlayAll_table (es fs : List (String × Value)) :
    ∃ gs, overlayAll es (table fs) = table gs := by
  induction es generalizing fs with
  | nil => exact ⟨fs, rfl⟩
  | cons e es ih => exact ih _

/-- A value laid over another takes its place, but for an empty table. -/
theorem overlay_alike (hv : v ≠ table []) (old : Option Value) : Alike (overlay v old) v := by
  cases v with
  | table es =>
    cases es with
    | nil => exact absurd rfl hv
    | cons e es =>
      obtain ⟨gs, hgs⟩ := exists_overlayAll_table es (putEntry e.1.toLower
        (overlay e.2 ((old.getD (table [])).get? e.1.toLower)) (old.getD (table [])).entries)
      exact .inr ⟨gs, _, hgs, rfl⟩
  | _ => exact .inl rfl

/-! ## The options of a configuration -/

/-- The value under a key of the options. -/
def at? (config : Value) (k : Key) : Option Value := (config.get? k.table).bind (·.get? k.name)

theorem subtable_of_at? (h : config.at? k = some v) :
    ∃ t, config.subtable k.table = .ok t ∧ t.get? k.name = some v := by
  obtain ⟨t, ht, hv⟩ := Option.bind_eq_some_iff.mp h
  cases t with
  | table es => exact ⟨table es, by rw [subtable, ht], hv⟩
  | _ => simp [get?, entries] at hv

theorem bind_eq_ok {α β : Type} {x : Except Problem α} {f : α → Except Problem β} {b : β} :
    (x >>= f) = .ok b ↔ ∃ a, x = .ok a ∧ f a = .ok b := by
  cases x with
  | error => exact ⟨nofun, fun ⟨_, h, _⟩ => nomatch h⟩
  | ok a => exact ⟨fun h => ⟨a, rfl, h⟩, fun ⟨_, h, hb⟩ => by cases h; exact hb⟩

theorem field?_eq_ok {α : Type} {convert : Value → Except Problem α} {key : String} {a : Option α}
    (h : config.get? key = some v) :
    config.field? convert key = .ok a ↔ ∃ b, convert v = .ok b ∧ a = some b := by
  rw [field?, h]
  cases hv : convert v <;> simp [Except.map, hv, eq_comm]

theorem required_eq_ok {α : Type} {key : String} {a : α} {b : Option α} :
    required key b = .ok a ↔ b = some a := by
  cases b <;> simp [required]

/-- **The options are the conversions of the five values**, and one value
that does not convert leaves none. -/
theorem toOptions_eq_ok {values : Key → Value} (h : ∀ k, config.at? k = some (values k)) :
    config.toOptions = .ok o ↔ ∀ k : Key, k.Gives (values k) o := by
  obtain ⟨indent, hi, hunit⟩ := subtable_of_at? (h .indentUnit)
  obtain ⟨_, hi', hfactor⟩ := subtable_of_at? (h .tagLineFactor)
  cases hi.symm.trans hi'
  obtain ⟨_, hi', hpast⟩ := subtable_of_at? (h .tagLinePastName)
  cases hi.symm.trans hi'
  obtain ⟨script, hs, htypes⟩ := subtable_of_at? (h .scriptTypes)
  obtain ⟨_, hs', htemplates⟩ := subtable_of_at? (h .templateTypes)
  cases hs.symm.trans hs'
  simp only [Key.table, Key.name] at hi hs hunit hfactor hpast htypes htemplates
  simp only [toOptions, bind_eq_ok, hi, hs, Except.ok.injEq, exists_eq_left', field?_eq_ok hunit,
    field?_eq_ok hfactor, field?_eq_ok hpast, field?_eq_ok htypes, field?_eq_ok htemplates,
    required_eq_ok, Key.forall_iff, Key.Gives]
  constructor
  · rintro ⟨_, ⟨unit, hu, rfl⟩, _, ⟨factor, hf, rfl⟩, _, ⟨past, hp, rfl⟩, _, ⟨⟩, _, ⟨⟩, _, ⟨⟩,
      _, ⟨types, ht, rfl⟩, _, ⟨templates, hm, rfl⟩, _, ⟨⟩, _, ⟨⟩, ⟨⟩⟩
    exact ⟨hu, hf, hp, ht, hm⟩
  · rintro ⟨hu, hf, hp, ht, hm⟩
    exact ⟨_, ⟨_, hu, rfl⟩, _, ⟨_, hf, rfl⟩, _, ⟨_, hp, rfl⟩, _, rfl, _, rfl, _, rfl,
      _, ⟨_, ht, rfl⟩, _, ⟨_, hm, rfl⟩, _, rfl, _, rfl, rfl⟩

end Value

/-! ## What a configuration shows -/

open Value

variable {config v w : Value} {k k' : Key}

/-- A configuration holds a value for a key that converts like `w`. -/
def Shows (config : Value) (k : Key) (w : Value) : Prop := ∃ v, config.at? k = some v ∧ Alike v w

theorem at?_defaults (k : Key) : Layering.defaults.at? k = some k.default := by
  cases k <;> rfl

theorem shows_defaults (k : Key) : Shows Layering.defaults k k.default :=
  ⟨k.default, at?_defaults k, .inl rfl⟩

/-- **What is written elsewhere leaves the key**: in another table, or in
its table under another name, however much further the path goes. -/
theorem at?_update_elsewhere {f : Option Value → Value} {s : String} {more : Path}
    (h : s = k.table → ∃ name rest, more = .key name :: rest ∧ name ≠ k.name) :
    (update f (.key s :: more) (some config)).at? k = config.at? k := by
  rw [update, at?, Option.getD_some, get?_put]
  by_cases hs : k.table = s
  · obtain ⟨name, rest, rfl, hname⟩ := h hs.symm
    rw [if_pos hs, update, Option.bind_some, get?_put, if_neg (Ne.symm hname), at?, hs]
    cases config.get? s <;> rfl
  · rw [if_neg hs, at?]

/-- What is written at the key itself is laid over what the key holds. -/
theorem at?_update_path {f : Option Value → Value} :
    (update f k.path (some config)).at? k = some (f (config.at? k)) := by
  rw [Key.path, update, at?, Option.getD_some, get?_put, if_pos rfl, Option.bind_some, update,
    get?_put, if_pos rfl, update, at?]
  cases config.get? k.table <;> rfl

/-- A value written over a key decides it, and no other key. -/
theorem Shows.update (h : Shows config k w) (hv : v ≠ .table []) (k' : Key) :
    Shows (Value.update v.overlay k'.path (some config)) k (if k' = k then v else w) := by
  split
  · next hk =>
    subst hk
    exact ⟨_, at?_update_path, overlay_alike hv _⟩
  · next hk =>
    obtain ⟨u, hu, hw⟩ := h
    refine ⟨u, ?_, hw⟩
    rw [Key.path, at?_update_elsewhere fun _ =>
      ⟨k'.name, [], rfl, fun hname => hk (Key.name_injective hname)⟩]
    exact hu

/-! ## The keys of a file -/

section Paths

open Text Text.Reader

theorem bind_run_eq_some {α β : Type} {r : Reader α} {f : α → Reader β} {text : List Char}
    {b : β × List Char} :
    (r >>= f).run text = some b ↔ ∃ a, r.run text = some a ∧ (f a.1).run a.2 = some b := by
  rw [StateT.run_bind]
  exact Option.bind_eq_some_iff

theorem run_name_eq_some {text : List Char} {a : Segment × List Char}
    (h : Path.name.run text = some a) :
    a.1 = .key (String.ofList (text.takeWhile Path.isNameChar)).toLower ∧
      a.2 = text.dropWhile Path.isNameChar := by
  obtain ⟨⟨taken, rest⟩, htaken, h⟩ := bind_run_eq_some.mp h
  cases h
  obtain ⟨_, ⟨⟩, h⟩ := bind_run_eq_some.mp htaken
  dsimp only at h
  split at h
  · cases h
  · cases h
    exact ⟨rfl, rfl⟩

theorem eq_nil_of_run_segments {fuel : Nat} {text rest : List Char}
    (h : (Path.segments fuel).run text = some ([], rest)) : text = [] := by
  cases fuel with
  | zero => cases h
  | succ fuel =>
    rw [Path.segments] at h
    obtain ⟨_, ⟨⟩, h⟩ := bind_run_eq_some.mp h
    dsimp only at h
    split at h
    · next hempty => exact List.isEmpty_iff.mp hempty
    -- Any other end of the loop puts a segment in front.
    · obtain ⟨_, -, h⟩ := bind_run_eq_some.mp h
      split at h
      · obtain ⟨_, -, h⟩ := bind_run_eq_some.mp h
        obtain ⟨_, -, ⟨⟩⟩ := bind_run_eq_some.mp h
      · obtain ⟨_, -, h⟩ := bind_run_eq_some.mp h
        obtain ⟨_, -, h⟩ := bind_run_eq_some.mp h
        obtain ⟨_, -, ⟨⟩⟩ := bind_run_eq_some.mp h

/-- A path that is read starts with a name, and if it goes no further the
text is that name. -/
theorem read?_eq_some {text : String} {p : Path} (h : Path.read? text = some p) :
    ∃ s more, p = .key s :: more ∧ (more = [] → s = text.toLower) := by
  rw [Path.read?, readAll?] at h
  split at h
  · next a hrun =>
    cases h
    obtain ⟨⟨first, rest⟩, hname, hrun⟩ := bind_run_eq_some.mp hrun
    obtain ⟨⟨more, _⟩, hmore, ⟨⟩⟩ := bind_run_eq_some.mp hrun
    obtain ⟨hfirst, hrest⟩ := run_name_eq_some hname
    dsimp only at hfirst hrest hmore
    refine ⟨_, more, by rw [hfirst], ?_⟩
    rintro rfl
    have hall := List.takeWhile_append_dropWhile (p := Path.isNameChar) (l := text.toList)
    rw [← hrest, eq_nil_of_run_segments hmore, List.append_nil] at hall
    rw [hall, String.ofList_toList]
  · cases h

end Paths

/-- The path that an entry at the top of a file is laid over. -/
def pathOf (key : String) : Path := (Path.read? key).getD [.key key.toLower]

theorem pathOf_eq (key : String) :
    ∃ s more, pathOf key = .key s :: more ∧ (more = [] → s = key.toLower) := by
  rw [pathOf]
  cases h : Path.read? key with
  | none => exact ⟨_, [], rfl, fun _ => rfl⟩
  | some p => exact read?_eq_some h

theorem toLower_of_pathOf {key s : String} (h : pathOf key = [.key s]) : key.toLower = s := by
  obtain ⟨_, _, hpath, hlower⟩ := pathOf_eq key
  cases hpath.symm.trans h
  exact (hlower rfl).symm

/-! ## The value that a layer sets -/

/-- The value that the entries of a table set under a name: an empty table
sets nothing. -/
def setUnder? (name : String) (es : List (String × Value)) : Option Value :=
  match entryOf? name es with
  | some (.table []) => none
  | v => v

namespace Key

/-- The value that an entry at the top of a file sets for a key, if it is
the table of the key. -/
def setByEntry? (k : Key) (entry : String × Value) : Option Value :=
  if pathOf entry.1 = [.key k.table] then setUnder? k.name entry.2.entries else none

/-- The value that a layer sets for a key. -/
def setBy? (k : Key) (entries : List (String × Value)) : Option Value :=
  entries.findSome? k.setByEntry?

/-- The value of a key that was set last: by an override of the key, else
by a layer, else by the defaults. -/
def winner (k : Key) (layers : List (List (String × Value))) (overrides : List (Key × Value)) :
    Value :=
  ((overrides.reverse.lookup k).or (layers.reverse.findSome? k.setBy?)).getD k.default

end Key

/-- A layer that means what it says. Its keys stay distinct in lower case,
at the top and in the tables of the options, which are tables; and where
a key at the top writes a longer path into one of these tables, the path
leads past the keys of the options. -/
structure Plain (entries : List (String × Value)) : Prop where
  distinct : (entries.map (·.1.toLower)).Nodup
  tables : ∀ e ∈ entries, ∀ k : Key, pathOf e.1 = [.key k.table] →
    ∃ es, e.2 = .table es ∧ (es.map (·.1.toLower)).Nodup
  past : ∀ e ∈ entries, ∀ k : Key, ∀ segment more, pathOf e.1 = .key k.table :: segment :: more →
    ∃ name, segment = .key name ∧ name ≠ k.name

variable {entries : List (String × Value)} {entry : String × Value}

/-- A layer of plain keys, of which those that name a table of options hold one. -/
theorem Plain.of_keys (hdistinct : (entries.map (·.1.toLower)).Nodup)
    (hkeys : ∀ e ∈ entries, pathOf e.1 = [.key e.1.toLower])
    (htables : ∀ e ∈ entries, (∃ k : Key, e.1.toLower = k.table) →
      ∃ es, e.2 = .table es ∧ (es.map (·.1.toLower)).Nodup) : Plain entries where
  distinct := hdistinct
  tables := by
    intro e he k hpath
    exact htables e he ⟨k, toLower_of_pathOf hpath⟩
  past := by
    intro e he k segment more hpath
    rw [hkeys e he] at hpath
    exact absurd (congrArg List.length hpath) (by simp)

/-- Merging a table into the table of a key sets the key as the entries say. -/
theorem Shows.put_overlayAll {es : List (String × Value)} (h : Shows config k w)
    (hes : (es.map (·.1.toLower)).Nodup) :
    Shows (config.put k.table (overlay (.table es) (config.get? k.table))) k
      ((setUnder? k.name es).getD w) := by
  obtain ⟨u, hu, hw⟩ := h
  obtain ⟨t, ht, hu⟩ := Option.bind_eq_some_iff.mp hu
  have hat : (config.put k.table (overlay (.table es) (config.get? k.table))).at? k =
      ((entryOf? k.name es).map fun v => overlay v (some u)).or (some u) := by
    rw [at?, get?_put, if_pos rfl, Option.bind_some, ht, overlay, Option.getD_some,
      get?_overlayAll hes, hu]
  rw [Shows, hat, setUnder?]
  split
  · next hset =>
    rw [hset]
    exact ⟨u, rfl, hw⟩
  · next hset =>
    cases hv : entryOf? k.name es with
    | none => exact ⟨u, rfl, hw⟩
    | some v => exact ⟨_, rfl, overlay_alike (fun he => hset (hv ▸ congrArg some he)) _⟩

/-- An entry that is laid over sets the keys of its table as it says, and
leaves all others. -/
theorem Shows.layEntry (h : Shows config k w) (hl : Plain entries) (he : entry ∈ entries) :
    Shows (Layering.layEntry config entry) k ((k.setByEntry? entry).getD w) := by
  obtain ⟨s, more, hpath, -⟩ := pathOf_eq entry.1
  have hlay : Layering.layEntry config entry =
      Value.update entry.2.overlay (pathOf entry.1) (some config) := rfl
  rw [hlay, Key.setByEntry?]
  split
  · next hk =>
    obtain ⟨es, hes, hnodup⟩ := hl.tables entry he k hk
    rw [hk, Value.update, Option.getD_some, Value.update, hes]
    exact h.put_overlayAll hnodup
  · next hk =>
    rw [Option.getD_none, hpath, Shows, at?_update_elsewhere]
    · exact h
    · rintro rfl
      cases more with
      | nil => exact absurd hpath hk
      | cons segment more =>
        obtain ⟨name, rfl, hname⟩ := hl.past entry he k segment more hpath
        exact ⟨name, more, rfl, hname⟩

/-! ## The last writer -/

/-- **The last to write decides**, if every writer decides the key or
leaves it. -/
theorem Shows.foldl {α : Type} {f : Value → α → Value} {set? : α → Option Value} {xs : List α}
    (hstep : ∀ x ∈ xs, ∀ config w, Shows config k w → Shows (f config x) k ((set? x).getD w))
    (h : Shows config k w) :
    Shows (xs.foldl f config) k ((xs.reverse.findSome? set?).getD w) := by
  induction xs generalizing config w with
  | nil => exact h
  | cons x xs ih =>
    have hx := hstep x List.mem_cons_self config w h
    have hxs := ih (fun y hy => hstep y (List.mem_cons_of_mem x hy)) hx
    rwa [List.reverse_cons, List.findSome?_append, List.findSome?_singleton, Option.getD_or]

/-- The order of a search does not matter where one element answers at most. -/
theorem findSome?_reverse {α β : Type} {f : α → Option β} {xs : List α}
    (h : xs.Pairwise fun x y => f x = none ∨ f y = none) :
    xs.reverse.findSome? f = xs.findSome? f := by
  induction xs with
  | nil => rfl
  | cons x xs ih =>
    obtain ⟨hx, hxs⟩ := List.pairwise_cons.mp h
    rw [List.reverse_cons, List.findSome?_append, List.findSome?_singleton, ih hxs,
      List.findSome?_cons]
    cases hfx : f x with
    | none => exact Option.or_none
    | some b =>
      have hnone : xs.findSome? f = none := List.findSome?_eq_none_iff.mpr fun y hy =>
        (hx y hy).resolve_left (by rw [hfx]; nofun)
      rw [hnone, Option.none_or]

/-- One entry of a layer at most is the table of a key. -/
theorem Plain.findSome?_reverse (hl : Plain entries) (k : Key) :
    entries.reverse.findSome? k.setByEntry? = k.setBy? entries := by
  refine Settings.findSome?_reverse ((List.pairwise_map.mp hl.distinct).imp fun {e e'} hne => ?_)
  by_cases he : pathOf e.1 = [.key k.table]
  · refine .inr (if_neg fun he' => hne ?_)
    rw [toLower_of_pathOf he, toLower_of_pathOf he']
  · exact .inl (if_neg he)

/-- **A layer decides the keys that it sets.** -/
theorem Shows.layer (h : Shows config k w) (hl : Plain entries) :
    Shows (entries.foldl Layering.layEntry config) k ((k.setBy? entries).getD w) := by
  rw [← hl.findSome?_reverse k]
  exact h.foldl fun e he _ _ h => h.layEntry hl he

namespace Layering

variable {read? : FileReader} {files : String → FileEntry} {l : Layering}
  {layers : List (List (String × Value))} {overrides : List (Key × Value)} {o : Options} {n : Nat}

/-- What a configuration is built from: files and overrides of keys. -/
inductive Setting where
  | file (layer : Layer)
  | value (key : Key) (value : Value)

namespace Setting

/-- The file that is laid over the configuration. -/
def file? : Setting → Option Layer
  | file layer => some layer
  | value _ _ => none

/-- The key that is overridden, and its value. -/
def override? : Setting → Option (Key × Value)
  | file _ => none
  | value k v => some (k, v)

/-- Add to a configuration. -/
def addTo (l : Layering) : Setting → Except Problem Layering
  | file layer => .ok (l.addFile layer.name layer.required)
  | value k v => l.override k.text v

end Setting

/-- The configuration with the settings, which are added one after the other. -/
def addAll (settings : List Setting) (l : Layering) : Except Problem Layering :=
  settings.foldlM Setting.addTo l

/-- The overrides among settings, written as paths. -/
def overridesOf (settings : List Setting) : List (Path × Value) :=
  (settings.filterMap Setting.override?).map fun o => (o.1.path, o.2)

theorem override_text (k : Key) (v : Value) (l : Layering) :
    l.override k.text v = .ok { l with overrides := l.overrides ++ [(k.path, v)] } := by
  rw [override, Key.read?_text]

/-- **Files and overrides are kept apart**, in whatever order they are added. -/
theorem addAll_eq (settings : List Setting) (l : Layering) :
    l.addAll settings = .ok ⟨l.layers ++ settings.filterMap Setting.file?,
      l.overrides ++ overridesOf settings⟩ := by
  induction settings generalizing l with
  | nil =>
    rw [List.filterMap_nil, overridesOf, List.filterMap_nil, List.map_nil, List.append_nil,
      List.append_nil]
    rfl
  | cons setting settings ih =>
    rw [addAll, List.foldlM_cons]
    cases setting with
    | file layer =>
      exact (ih (l.addFile layer.name layer.required)).trans (by
        rw [addFile, List.append_assoc]
        rfl)
    | value k v =>
      rw [Setting.addTo, override_text]
      exact (ih { l with overrides := l.overrides ++ [(k.path, v)] }).trans (by
        rw [List.append_assoc]
        rfl)

/-- **Layers and overrides show the winner of every key.** -/
theorem shows_winner (hplain : ∀ entries ∈ layers, Plain entries)
    (hset : ∀ o ∈ overrides, o.2 ≠ .table []) (k : Key) :
    Shows (overrides.foldl (fun config o => Value.update o.2.overlay o.1.path (some config))
      (layers.flatten.foldl layEntry defaults)) k (k.winner layers overrides) := by
  have hlayers : Shows (layers.flatten.foldl layEntry defaults) k
      ((layers.reverse.findSome? k.setBy?).getD k.default) := by
    rw [List.foldl_flatten]
    exact (shows_defaults k).foldl fun entries he _ _ h => h.layer (hplain entries he)
  rw [Key.winner, Option.getD_or, List.lookup_eq_findSome?]
  refine hlayers.foldl fun x hx config w h => ?_
  have hupdate := h.update (hset x hx) x.1
  by_cases hk : x.1 = k
  · simpa [hk] using hupdate
  · simpa [hk, Ne.symm hk] using hupdate

/-- The options are the conversions of the winners. -/
theorem options_eq_ok
    (hread : (l.layers.mapM fun layer => layerEntries files layer read?) = .ok layers)
    (hplain : ∀ entries ∈ layers, Plain entries)
    (hover : l.overrides = overrides.map fun o => (o.1.path, o.2))
    (hset : ∀ o ∈ overrides, o.2 ≠ .table []) :
    l.options files read? = .ok o ↔ ∀ k : Key, k.Gives (k.winner layers overrides) o := by
  choose values hvalues halike using shows_winner hplain hset
  have hmerged : l.options files read? =
      (overrides.foldl (fun config o => Value.update o.2.overlay o.1.path (some config))
        (layers.flatten.foldl layEntry defaults)).toOptions := by
    rw [options, merged, hread, hover]
    show Value.toOptions (List.foldl _ _ (List.map _ _)) = _
    rw [List.foldl_map]
  rw [hmerged, toOptions_eq_ok hvalues]
  exact forall_congr' fun k => (halike k).gives_iff k

theorem winner_append_self (layers : List (List (String × Value)))
    (overrides : List (Key × Value)) (k : Key) (v : Value) :
    k.winner layers (overrides ++ [(k, v)]) = v := by
  simp [Key.winner]

theorem winner_append_of_ne {k k' : Key} (h : k ≠ k') (v : Value) :
    k.winner layers (overrides ++ [(k', v)]) = k.winner layers overrides := by
  simp [Key.winner, List.lookup_cons, beq_false_of_ne h]

/-- A unit that is set last is the unit, and the other keys keep their winners. -/
theorem forall_gives_append_indentUnit (hn : n ≤ maxInteger) :
    (∀ k : Key, k.Gives (k.winner layers (overrides ++ [(.indentUnit, .int n)])) o) ↔
      o.indentUnit = n ∧ ∀ k : Key, k ≠ .indentUnit → k.Gives (k.winner layers overrides) o := by
  have hfits : (0 : Int) ≤ n ∧ (n : Int) ≤ maxUnsigned := by
    have : maxInteger ≤ maxUnsigned := by decide
    omega
  have hunit : Key.indentUnit.Gives (.int n) o ↔ o.indentUnit = n := by
    simp [Key.Gives, toUnsigned, hfits, eq_comm]
  constructor
  · intro h
    refine ⟨?_, fun k hk => ?_⟩
    · rw [← hunit, ← winner_append_self layers overrides .indentUnit (.int n)]
      exact h .indentUnit
    · rw [← winner_append_of_ne hk]
      exact h k
  · rintro ⟨hn, h⟩ k
    by_cases hk : k = .indentUnit
    · subst hk
      rw [winner_append_self]
      exact hunit.mpr hn
    · rw [winner_append_of_ne hk]
      exact h k hk

/-- **The last to set a key decides it.** Files that can be read, by
whichever reader, and mean what they say and overrides of keys by values of
any kind can be added in any order. The configuration then has options
exactly when the winner of every key converts, and they are what the
winners convert to, whatever was set before them. To override the
indentation unit last of all sets it and leaves the other options to their
winners; a unit above 63 bits is refused. -/
theorem last_to_set_decides {settings : List Setting}
    (hread : ((settings.filterMap Setting.file?).mapM fun layer => layerEntries files layer read?) =
      .ok layers)
    (hplain : ∀ entries ∈ layers, Plain entries)
    (hset : ∀ o ∈ settings.filterMap Setting.override?, o.2 ≠ .table []) :
    ∃ l, addAll settings {} = .ok l ∧
      (∀ o, l.options files read? = .ok o ↔
        ∀ k : Key, k.Gives (k.winner layers (settings.filterMap Setting.override?)) o) ∧
      (∀ n ≤ maxInteger, ∃ l', l.overrideIndentUnit n = .ok l' ∧
        ∀ o, l'.options files read? = .ok o ↔ o.indentUnit = n ∧ ∀ k : Key, k ≠ .indentUnit →
          k.Gives (k.winner layers (settings.filterMap Setting.override?)) o) ∧
      ∀ n > maxInteger, l.overrideIndentUnit n = .error (.unitTooLarge n) := by
  refine ⟨_, addAll_eq settings {}, fun o => options_eq_ok hread hplain rfl hset, ?_, ?_⟩
  · intro n hn
    refine ⟨_, (if_pos hn).trans (override_text .indentUnit (.int n) _), fun o => ?_⟩
    rw [← forall_gives_append_indentUnit hn]
    refine options_eq_ok hread hplain ?_ fun x hx => ?_
    · rw [List.map_append]
      rfl
    · obtain hx | hx := List.mem_append.mp hx
      · exact hset x hx
      · rw [List.mem_singleton.mp hx]
        nofun
  · intro n hn
    exact if_neg (Nat.not_le.mpr hn)

/-- Files that set a unit and a factor, beside values that are no settings. -/
def unitAndFactor : String → FileEntry
  | "user.toml" => .text "ratio = 0.5\n[indent]\nunit = 'wide'\nmultiline_tag_factor = 1e99\n"
  | "project.toml" => .text "[Indent]\nmultiline_tag_factor = 2.6\n[[rule]]\nsince = 1979-05-27\n"
  | _ => .missing

/-- The two files, with values for a key before and behind the second, and a unit that does not
fit 64 bits. -/
def unitAndFactorSettings : List Setting :=
  [.file ⟨"user.toml", true⟩, .value .tagLinePastName (.text "maybe"), .file ⟨"project", false⟩,
    .value .indentUnit (.int 0x400000000000000000), .value .tagLinePastName (.float 0)]

/-- The entries of the two files. -/
def unitAndFactorLayers : List (List (String × Value)) :=
  [[("ratio", .float 0.5),
      ("indent", .table [("unit", .text "wide"), ("multiline_tag_factor", .float 1e99)])],
    [("Indent", .table [("multiline_tag_factor", .float 2.6)]),
      ("rule", .list [.table [("since", .text "1979-05-27")]])]]

theorem mapM_unitAndFactor :
    ((unitAndFactorSettings.filterMap Setting.file?).mapM fun layer =>
      layerEntries unitAndFactor layer) = .ok unitAndFactorLayers := by
  decide +kernel

/-- A table of options is a table here. -/
theorem plain_unitAndFactor : ∀ entries ∈ unitAndFactorLayers, Plain entries := by
  have hdistinct : ∀ entries ∈ unitAndFactorLayers, (entries.map (·.1.toLower)).Nodup := by
    decide +kernel
  have hkeys : ∀ entries ∈ unitAndFactorLayers, ∀ e ∈ entries, pathOf e.1 = [.key e.1.toLower] := by
    decide +kernel
  have htables : ∀ entries ∈ unitAndFactorLayers, ∀ e ∈ entries,
      ["indent", "script"].contains e.1.toLower →
        e.2 = .table e.2.entries ∧ (e.2.entries.map (·.1.toLower)).Nodup := by
    decide +kernel
  intro entries hentries
  refine .of_keys (hdistinct entries hentries) (hkeys entries hentries) ?_
  rintro e he ⟨k, hk⟩
  refine ⟨_, htables entries hentries e he ?_⟩
  rw [hk]
  cases k <;> decide

/-- A unit that is too large leaves no options until another is set, though
all other values convert, the floats among them by rounding. -/
theorem last_to_set_decides_after_bad_unit :
    ∃ l l', addAll unitAndFactorSettings {} = .ok l ∧
      (∀ o, l.options unitAndFactor ≠ .ok o) ∧ l.overrideIndentUnit 8 = .ok l' ∧
      l'.options unitAndFactor =
        .ok { indentUnit := 8, tagLineFactor := 3, tagLinePastName := false } := by
  have hset : ∀ o ∈ unitAndFactorSettings.filterMap Setting.override?, o.2 ≠ .table [] := by
    decide +kernel
  obtain ⟨l, hl, hoptions, hunit, -⟩ :=
    last_to_set_decides mapM_unitAndFactor plain_unitAndFactor hset
  obtain ⟨l', hl', hoptions'⟩ := hunit 8 (by decide)
  refine ⟨l, l', hl, fun o ho => ?_, hl', (hoptions' _).mpr ⟨rfl, fun k hk => ?_⟩⟩
  · have hunit : Value.toUnsigned _ = .ok o.indentUnit := (hoptions o).mp ho .indentUnit
    have hok : (Value.toUnsigned _).isOk = true := congrArg Except.isOk hunit
    exact absurd hok (by decide +kernel)
  · cases k with
    | indentUnit => exact absurd rfl hk
    | _ => decide +kernel

/-- Files that set an empty table and a key that writes a path. -/
def emptyAndPath : String → FileEntry
  | "unit.toml" => .text "[indent.unit]\n"
  | "types.toml" => .text "'script.template_types[0]' = '/x'\n"
  | _ => .missing

/-- **Not all that is set last decides.** An empty table is no number, yet
it spoils nothing where the last layer sets it for the unit; and a key of
another name than `script` sets a template type, where it writes the path. -/
theorem empty_table_and_path_key :
    (layerEntries emptyAndPath ⟨"unit.toml", true⟩ =
        .ok [("indent", .table [("unit", .table [])])] ∧
      (∀ o, ¬ Key.indentUnit.Gives (.table []) o) ∧
      options emptyAndPath { layers := [⟨"unit.toml", true⟩] } = .ok {}) ∧
    (layerEntries emptyAndPath ⟨"types.toml", true⟩).map (·.map Prod.fst) =
        .ok ["script.template_types[0]"] ∧
      options emptyAndPath { layers := [⟨"types.toml", true⟩] } =
        .ok { templateTypes := ["/x", "/x-mustache"] } :=
  ⟨⟨by decide +kernel, fun _ => nofun, by decide +kernel⟩, by decide +kernel, by decide +kernel⟩

end Layering

end Settings

end MixedMarkup
