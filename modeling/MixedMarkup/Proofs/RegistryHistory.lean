import MixedMarkup.Proofs.LetterCase
import MixedMarkup.Registry
import Mathlib.Data.List.Induction
/-!
# The registry — what a history of changes leaves

A registry comes from registrations and definitions of MIME types, made in
some order, and a look-up finds the last of them that matters
(`find?_after`, `mimes_after`). A MIME type is looked up in lower case and
stored as it is given. So a definition in another spelling is never found,
and apart from those the tokenizer of a MIME type is the one registered last
under the name that the type was bound to last, in whatever case it is asked
for (`mime_lookup`).
-/

namespace MixedMarkup

namespace Registry

/-- A change of a registry. -/
inductive Change where
  | register (h : Highlighter)
  | defineMime (mime name : String)

namespace Change

/-- The highlighter that the change registers under a name. -/
def registers? (name : String) : Change → Option Highlighter
  | register h => if h.name = name then some h else none
  | defineMime .. => none

/-- The name to which the change binds a MIME type, in whatever case the two
are spelled. -/
def binds? (mime : String) : Change → Option String
  | register _ => none
  | defineMime defined name => if defined.toLower = mime.toLower then some name else none

/-- Whether the MIME type that the change defines, if it does, is spelled in
lower case. -/
def inLowerCase : Change → Bool
  | register _ => true
  | defineMime mime _ => mime.toLower == mime

end Change

/-- The registry after one more change. -/
def apply (r : Registry) : Change → Registry
  | .register h => r.register h
  | .defineMime mime name => r.defineMime mime name

/-- The registry after changes, the first of which comes first. -/
def after (r : Registry) (changes : List Change) : Registry := changes.foldl apply r

/-- The highlighter registered last under a name. -/
def lastRegistered? (name : String) (changes : List Change) : Option Highlighter :=
  changes.reverse.findSome? (Change.registers? name)

/-- The name to which a MIME type was bound last. -/
def lastBound? (mime : String) (changes : List Change) : Option String :=
  changes.reverse.findSome? (Change.binds? mime)

variable {r : Registry} {changes more opening : List Change} {change : Change}

theorem after_append (r : Registry) (changes more : List Change) :
    r.after (changes ++ more) = (r.after changes).after more :=
  List.foldl_append

theorem lastRegistered?_concat (name : String) (changes : List Change) (change : Change) :
    lastRegistered? name (changes ++ [change]) =
      (change.registers? name).or (lastRegistered? name changes) := by
  simp only [lastRegistered?, List.reverse_append, List.reverse_singleton,
    List.singleton_append, List.findSome?_cons]
  cases change.registers? name <;> rfl

theorem lastBound?_concat (mime : String) (changes : List Change) (change : Change) :
    lastBound? mime (changes ++ [change]) =
      (change.binds? mime).or (lastBound? mime changes) := by
  simp only [lastBound?, List.reverse_append, List.reverse_singleton,
    List.singleton_append, List.findSome?_cons]
  cases change.binds? mime <;> rfl

/-- Lower case is the same of all spellings. -/
theorem toLower_toLower (text : String) : text.toLower.toLower = text.toLower := by
  change (text.map Char.toLower).map Char.toLower = text.map Char.toLower
  rw [← String.toList_inj]
  simp only [String.toList_map, map_toLower_map_toLower]

/-! ## Look-ups -/

/-- What one change does to the highlighter of a name. -/
theorem find?_apply (r : Registry) (change : Change) (name : String) :
    (r.apply change).find? name = (change.registers? name).or (r.find? name) := by
  cases change with
  | register h =>
    simp only [apply, register, find?, Std.TreeMap.getElem?_insert, Std.compare_eq_iff_eq,
      Change.registers?]
    split <;> rfl
  | defineMime mime bound => rfl

/-- And to what is bound to a MIME type in lower case, if it counts at all. -/
theorem mimes_apply (r : Registry) (change : Change) (mime : String) :
    (r.apply change).mimes[mime.toLower]? =
      (if change.inLowerCase then change.binds? mime else none).or r.mimes[mime.toLower]? := by
  cases change with
  | register h => rfl
  | defineMime defined name =>
    simp only [apply, defineMime, Std.TreeMap.getElem?_insert, Std.compare_eq_iff_eq,
      Change.inLowerCase, Change.binds?, beq_iff_eq]
    by_cases hlower : defined.toLower = defined
    · rw [if_pos hlower, hlower]
      split <;> rfl
    · -- what is asked for is in lower case, and so another type
      have hne : defined ≠ mime.toLower := by
        rintro rfl
        exact hlower (toLower_toLower mime)
      rw [if_neg hlower, if_neg hne]
      rfl

/-- **A name finds the highlighter registered last under it.** -/
theorem find?_after (changes : List Change) (name : String) :
    (empty.after changes).find? name = lastRegistered? name changes := by
  induction changes using List.reverseRecOn with
  | nil => rfl
  | append_singleton changes change ih =>
    rw [after_append, lastRegistered?_concat, ← ih]
    exact find?_apply _ change name

/-- **A MIME type finds the name bound to it last** by a definition in lower
case. -/
theorem mimes_after (changes : List Change) (mime : String) :
    (empty.after changes).mimes[mime.toLower]? =
      lastBound? mime (changes.filter Change.inLowerCase) := by
  induction changes using List.reverseRecOn with
  | nil => rfl
  | append_singleton changes change ih =>
    have hlast : (empty.after (changes ++ [change])).mimes[mime.toLower]? = _ :=
      (congrArg (·.mimes[mime.toLower]?) (after_append empty changes [change])).trans
        (mimes_apply _ change mime)
    rw [hlast, ih, List.filter_append]
    cases hlower : change.inLowerCase with
    | true => simp [hlower, lastBound?_concat]
    | false => simp [hlower]

/-! ## The registries that there are -/

/-- The changes that make the registry of the library's tokenizers. -/
def standardChanges (o : Options) (types : Mixed.TypePatterns) : List Change :=
  (standardHighlighters o types).map .register ++
    standardMimes.map fun m => .defineMime m.1 m.2

/-- A registry as it is at first, with the changes that made it: it is empty,
or has the library's tokenizers. -/
inductive Begins : Registry → List Change → Prop
  | empty : Begins empty []
  | standard {o : Options} {types : Mixed.TypePatterns} {r : Registry} :
      Mixed.TypePatterns.ofOptions o = .ok types → standard o = .ok r →
      Begins r (standardChanges o types)

/-- It is what the changes make of an empty one. -/
theorem Begins.eq_after (h : r.Begins opening) : r = Registry.empty.after opening := by
  cases h with
  | empty => rfl
  | @standard o types r htypes hr =>
    rw [Registry.standard, htypes] at hr
    have hfold := Except.ok.inj hr
    rw [← hfold, standardChanges, after_append, after, after, List.foldl_map, List.foldl_map]
    rfl

/-- The library's own definitions are in lower case. -/
theorem Begins.inLowerCase (h : r.Begins opening) : ∀ c ∈ opening, c.inLowerCase = true := by
  cases h with
  | empty => simp
  | standard =>
    have hmimes : ∀ m ∈ standardMimes, (Change.defineMime m.1 m.2).inLowerCase = true := by
      decide +kernel
    intro c hc
    rcases List.mem_append.mp hc with hc | hc
    · obtain ⟨_, -, rfl⟩ := List.mem_map.mp hc
      rfl
    · obtain ⟨m, hm, rfl⟩ := List.mem_map.mp hc
      exact hmimes m hm

/-- A registry answers for MIME types as registrations and definitions tell:
with the highlighter registered last under the name that the type was bound
to last, and with a failure that names the type as it was asked for if there
is no such name or no such highlighter. -/
structure AnswersBy (r : Registry) (definitions registrations : List Change) : Prop where
  found : ∀ mime name h, lastBound? mime definitions = some name →
    lastRegistered? name registrations = some h →
    r.findByMime? mime = some h ∧
      ∀ source, r.highlightMime mime source = r.highlight name source
  missing : ∀ mime,
    (∀ name, lastBound? mime definitions = some name →
      lastRegistered? name registrations = none) →
    r.findByMime? mime = none ∧
      ∀ source, r.highlightMime mime source = .error (.unknownMime mime)

/-- What is made of an empty registry answers by the definitions in lower
case. -/
theorem answersBy_after (changes : List Change) :
    (empty.after changes).AnswersBy (changes.filter Change.inLowerCase) changes where
  found mime name h hbound hregistered := by
    have hname : (empty.after changes).find? name = some h := by
      rw [find?_after, hregistered]
    have hmime : (empty.after changes).findByMime? mime = some h := by
      rw [findByMime?, mimes_after, hbound, Option.bind_some, hname]
    refine ⟨hmime, fun source => ?_⟩
    rw [highlightMime, hmime, highlight, hname]
  missing mime hnone := by
    have hmime : (empty.after changes).findByMime? mime = none := by
      rw [findByMime?, mimes_after]
      cases hbound : lastBound? mime (changes.filter Change.inLowerCase) with
      | none => rfl
      | some name => rw [Option.bind_some, find?_after, hnone name hbound]
    refine ⟨hmime, fun source => ?_⟩
    rw [highlightMime, hmime]

/-- **MIME types over a history.** Take an empty registry or that of the
library, and any changes of it. It answers for every MIME type, in whatever
case it is asked for, as the history tells without the definitions that are
not in lower case. So it answers as the whole history tells if all
definitions are in lower case, and no definition that is not is ever
found. -/
theorem mime_lookup (hr : r.Begins opening) (changes : List Change) :
    (r.after changes).AnswersBy ((opening ++ changes).filter Change.inLowerCase)
        (opening ++ changes) ∧
      ((∀ c ∈ changes, c.inLowerCase = true) →
        (r.after changes).AnswersBy (opening ++ changes) (opening ++ changes)) := by
  have hanswers : (r.after changes).AnswersBy ((opening ++ changes).filter Change.inLowerCase)
      (opening ++ changes) := by
    rw [hr.eq_after, ← after_append]
    exact answersBy_after (opening ++ changes)
  refine ⟨hanswers, fun hchanges => ?_⟩
  have hall : (opening ++ changes).filter Change.inLowerCase = opening ++ changes := by
    rw [List.filter_eq_self]
    intro c hc
    rcases List.mem_append.mp hc with hc | hc
    · exact hr.inLowerCase c hc
    · exact hchanges c hc
  rwa [hall] at hanswers

/-- Changes that bind a type of the library to another tokenizer, and then
once more in capitals. -/
def rebinding : List Change :=
  [.defineMime "text/css" "nothing", .defineMime "text/css" "text", .defineMime "Text/CSS" "xml"]

/-- The type is found under the last name that it was bound to in lower
case, however it is asked for. -/
theorem mime_lookup_after_rebinding :
    ∃ r, standard {} = .ok r ∧ r.Begins (standardChanges {} .standard) ∧
      (r.after rebinding).findByMime? "TEXT/Css" = some Plain.tokenizer.toHighlighter ∧
      ∀ source, (r.after rebinding).highlightMime "TEXT/Css" source =
        (r.after rebinding).highlight "text" source := by
  have htypes : Mixed.TypePatterns.ofOptions {} = .ok .standard := by
    have hok : (Mixed.TypePatterns.ofOptions {}).isOk = true := by decide +kernel
    unfold Mixed.TypePatterns.standard
    cases h : Mixed.TypePatterns.ofOptions {} with
    | error failure => simp [h, Except.toBool] at hok
    | ok types => rfl
  obtain ⟨r, hr⟩ : ∃ r, standard {} = .ok r := by
    rw [standard, htypes]
    exact ⟨_, rfl⟩
  have hbegins : r.Begins (standardChanges {} .standard) := .standard htypes hr
  have hsmall : ("text/css".toLower == "text/css") = true := by decide +kernel
  have hcapital : ("Text/CSS".toLower == "Text/CSS") = false := by decide +kernel
  have hasked : ("TEXT/Css".toLower == "text/css") = true := by decide +kernel
  have hlower : rebinding.filter Change.inLowerCase =
      [.defineMime "text/css" "nothing"] ++ [.defineMime "text/css" "text"] := by
    simp [rebinding, Change.inLowerCase, hsmall, hcapital]
  have hlast : (Change.defineMime "text/css" "text").binds? "TEXT/Css" = some "text" := by
    rw [Change.binds?, eq_of_beq hsmall, eq_of_beq hasked, if_pos rfl]
  have hbound : lastBound? "TEXT/Css"
      ((standardChanges {} .standard ++ rebinding).filter Change.inLowerCase) = some "text" := by
    rw [List.filter_append, hlower, ← List.append_assoc, lastBound?_concat, hlast, Option.some_or]
  have hregistered : lastRegistered? "text" (standardChanges {} .standard ++ rebinding) =
      some Plain.tokenizer.toHighlighter := by
    have hname : Plain.tokenizer.toHighlighter.name = "text" := rfl
    simp [lastRegistered?, standardChanges, standardHighlighters, standardMimes, rebinding,
      List.findSome?_cons, Change.registers?, hname]
  obtain ⟨hmime, hsource⟩ :=
    (mime_lookup hbegins rebinding).1.found "TEXT/Css" "text" _ hbound hregistered
  exact ⟨r, hr, hbegins, hmime, hsource⟩

/-- Changes that register a tokenizer and bind a type in capitals to it. -/
def bindingInCapitals : List Change :=
  [.register Plain.tokenizer.toHighlighter, .defineMime "Text/X-Notes" "text"]

/-- **A type that is defined in capitals** is not found, in whatever case it is
asked for, and not even as it was defined. -/
theorem mime_defined_in_capitals_lost :
    lastBound? "Text/X-Notes" bindingInCapitals = some "text" ∧
      lastRegistered? "text" bindingInCapitals = some Plain.tokenizer.toHighlighter ∧
      (empty.after bindingInCapitals).findByMime? "Text/X-Notes" = none ∧
      (empty.after bindingInCapitals).highlightMime "Text/X-Notes" "a" =
        .error (.unknownMime "Text/X-Notes") ∧
      ¬ (empty.after bindingInCapitals).AnswersBy bindingInCapitals bindingInCapitals := by
  have hbound : lastBound? "Text/X-Notes" bindingInCapitals = some "text" := by decide +kernel
  have hnone : lastBound? "Text/X-Notes" (bindingInCapitals.filter Change.inLowerCase) = none := by
    decide +kernel
  obtain ⟨hlost, hfailure⟩ := (answersBy_after bindingInCapitals).missing "Text/X-Notes"
    (by simp [hnone])
  refine ⟨hbound, rfl, hlost, hfailure "a", fun hanswers => ?_⟩
  have hfound := (hanswers.found "Text/X-Notes" "text" _ hbound rfl).1
  rw [hlost] at hfound
  simp at hfound

end Registry

end MixedMarkup
