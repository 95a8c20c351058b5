import MixedMarkup.Proofs.RegionEntry
import MixedMarkup.Proofs.StateComparison
/-!
# Mixed documents — the host while a region is open

A state is reachable if calls of the tokenizer lead to it, on whatever
lines and also at their ends. While a region is open, the host of a
reachable state stands where the region's opening tag left it: outside
tags, at the base of the tag layer, with the region's element just opened
and innermost. The column that the region's tokenizer was started with is
the one that the host still gives an unindented line
(`host_parked_in_region`).

The invariant is kept by a single call (`consistent_token`). The one
thing that it needs of the host outside regions is that the name of a tag
is in lower case once it is read, so that an element taken for a script in
any case is `script` to the host.
-/

namespace MixedMarkup

open Cursor

namespace Tokenizer

variable {σ : Type}

/-- The states that calls lead to from a start at any column. A call is made
where a token begins, anywhere on a line and also at its end. -/
inductive Reachable (t : Tokenizer σ) : σ → Prop
  | start (baseIndent : Nat) : Reachable t (t.start baseIndent)
  | call {c : Cursor} {s : σ} : Reachable t s → c.token = [] → Reachable t (t.token c s).state

variable {t : Tokenizer σ} {s : σ}

/-- The reading of a line makes such calls. -/
theorem Reachable.readFrom (h : t.Reachable s) (index : Nat) (c : Cursor) :
    t.Reachable (t.readFrom index c s).state := by
  fun_induction Tokenizer.readFrom t index c s with
  | case1 => exact h
  | case2 c s hend step hlt tail ih => exact ih (h.call rfl)
  | case3 c s hend step hlt => exact h.call rfl

/-- **The states left by lines are reachable.** -/
theorem Reachable.readLines (h : t.Reachable s) (index : Nat) (lines : List (List Char)) :
    t.Reachable (t.readLines index lines s).state := by
  induction lines generalizing index s with
  | nil => exact h
  | cons line lines ih =>
    have hfirst : t.Reachable (t.readLine index line s).state := h.readFrom index (.ofLine line)
    simp only [Tokenizer.readLines]
    split
    · exact hfirst
    · exact ih hfirst (index + 1)

end Tokenizer

/-! ## The host -/

namespace Markup

variable {c : Cursor} {s : State}

/-- The part of a value on a line moves the stage only, and neither into the
attributes of a tag nor out of them. -/
theorem Flavour.step_quoted (f : Flavour) (c : Cursor) (s : State) :
    ∃ stage : Stage, (f.step .quoted c s).1 = { s with stage := stage } ∧
      (stage.Named ↔ s.stage.Named) := by
  cases hstage : s.stage with
  | base | tagName | afterValue =>
    refine ⟨s.stage, ?_, by rw [hstage]⟩
    change (f.step .quoted c s).1 = s
    simp [step, hstage]
  | closeName => exact ⟨.closingError, by simp [step, hstage], by simp [Stage.Named]⟩
  | closing | closingError =>
    exact ⟨.closing, by simp [step, hstage, stepClose], by simp [Stage.Named]⟩
  | attributes | afterAttribute =>
    exact ⟨.attributes, by simp [step, hstage, stepAttribute], by simp [Stage.Named]⟩
  | value => exact ⟨.afterValue, by simp [step, hstage], by simp [Stage.Named]⟩

/-- **A call at the end of a line** leaves the state as it is entered, but
within a value it moves the stage, as if an empty part of the value had been
read. -/
theorem Setup.token_atEnd_cases (m : Setup) (hrest : c.rest = []) :
    (m.token c s).state = enter c s ∨
      (∃ quote, s.zone = .value quote) ∧ ∃ stage : Stage,
        (m.token c s).state = { enter c s with stage := stage } ∧
          (stage.Named ↔ s.stage.Named) := by
  have hpeek : c.peek? = none := by simp [peek?, hrest]
  have hblanks : c.readBlanks? = none := by simp [readBlanks?, readWhile?, readIf?, hpeek]
  have hnext : c.next? = none := by simp [next?, hpeek]
  simp only [token, hblanks]
  cases hzone : s.zone with
  | text =>
    have hpiece : readPiece c (enter c s) = ⟨none, none, c, enter c s⟩ := by
      simp [readPiece, enter, hzone, inText, hnext]
    rw [hpiece]
    exact .inl rfl
  | tag =>
    have hpiece : readPiece c (enter c s) = ⟨none, none, c, enter c s⟩ := by
      simp [readPiece, enter, hzone, inTag, hnext]
    rw [hpiece]
    exact .inl rfl
  | verbatim v =>
    have hpiece : readPiece c (enter c s) = ⟨some v.style, none, c.read 0, enter c s⟩ := by
      simp [readPiece, enter, hzone, inVerbatim, hrest, Scan.through]
    rw [hpiece]
    exact .inl rfl
  | doctype =>
    have hpiece : readPiece c (enter c s) = ⟨some .metadata, none, c.read 0, enter c s⟩ := by
      simp [readPiece, enter, hzone, inDoctype, hrest, Scan.through]
    rw [hpiece]
    exact .inl rfl
  | value quote =>
    have hpiece : readPiece c (enter c s) =
        ⟨some .string, some .quoted, c.read 0, enter c s⟩ := by
      simp [readPiece, enter, hzone, inValue, hrest, Scan.through]
    rw [hpiece]
    exact .inr ⟨⟨quote, rfl⟩, m.flavour.step_quoted _ _⟩

/-- So it moves the stage at most. -/
theorem Setup.token_atEnd (m : Setup) (hrest : c.rest = []) :
    ∃ stage : Stage, (m.token c s).state = { enter c s with stage := stage } ∧
      (stage.Named ↔ s.stage.Named) := by
  rcases m.token_atEnd_cases (s := s) hrest with hstate | ⟨-, hmoved⟩
  · exact ⟨s.stage, hstate, Iff.rfl⟩
  · exact hmoved

/-- The stages of attributes stay in named tags, also at the ends of lines. -/
theorem Setup.settled_call (m : Setup) (hc : c.token = []) (h : s.Settled) :
    (m.token c s).state.Settled := by
  by_cases hrest : c.rest = []
  · obtain ⟨stage, hstate, hnamed⟩ := m.token_atEnd (s := s) hrest
    rw [hstate]
    intro hstage
    obtain ⟨name, hin⟩ := h (hnamed.mp hstage)
    exact ⟨name, hin.zone, hstage, hin.tagName⟩
  · exact m.settled_token hc hrest h

theorem State.settled_initial (baseIndent : Nat) : (State.initial baseIndent).Settled := by
  intro h
  simp [initial, Stage.Named] at h

/-- So they do in every state that calls lead to. -/
theorem Setup.settled_of_reachable (m : Setup) (h : m.tokenizer.Reachable s) : s.Settled := by
  induction h with
  | start baseIndent => exact State.settled_initial baseIndent
  | call _ hc ih => exact m.settled_call hc ih

/-- The tag being read has its name where the stage says so, and in lower
case. -/
structure State.WellNamed (s : State) : Prop where
  settled : s.Settled
  lower : ∀ name, s.InNamedTag name → name.toList.map Char.toLower = name.toList

theorem State.wellNamed_initial (baseIndent : Nat) : (State.initial baseIndent).WellNamed where
  settled := settled_initial baseIndent
  lower name h := by
    have := h.zone
    simp [initial, Zone.InTag] at this

/-- The html flavour reads names in lower case. -/
theorem Flavour.map_toLower_elementName (spelling : List Char) :
    (html.elementName spelling).toList.map Char.toLower = (html.elementName spelling).toList := by
  simp only [elementName, String.toList_ofList, map_toLower_map_toLower]

/-- **A call keeps names well.** -/
theorem Setup.wellNamed_token (m : Setup) (hflavour : m.flavour = .html) (hc : c.token = [])
    (h : s.WellNamed) : (m.token c s).state.WellNamed := by
  refine ⟨m.settled_call hc h.settled, ?_⟩
  by_cases hrest : c.rest = []
  · obtain ⟨stage, hstate, hnamed⟩ := m.token_atEnd (s := s) hrest
    rw [hstate]
    intro name hin
    exact h.lower name ⟨hin.zone, hnamed.mp hin.stage, hin.tagName⟩
  · intro name hin
    rcases (m.inNamedTag_token_iff hc hrest h.settled).mp hin with ⟨-, -, rfl⟩ | ⟨hbefore, -⟩
    · rw [hflavour]
      exact Flavour.map_toLower_elementName _
    · exact h.lower name hbefore

/-- The state stands right after the opening tag of an element. -/
structure State.ParkedIn (s : State) (element : String) : Prop where
  zone : s.zone = .text
  stage : s.stage = .base
  tagName : s.tagName = none
  opened : s.opened = true
  innermost : s.openElement = some element

@[simp] theorem Flavour.tagName_finishOpening (f : Flavour) (selfClosed : Bool) (s : State) :
    (f.finishOpening selfClosed s).tagName = none := by
  simp only [finishOpening]
  split <;> rfl

theorem State.openedElement_eq_some {element : String} (h : s.openedElement = some element) :
    s.opened = true ∧ s.openElement = some element := by
  unfold openedElement at h
  split at h
  · rename_i hopened
    exact ⟨hopened, h⟩
  · simp at h

/-- At the end of a line no element is opened. -/
theorem Setup.openedElement_token_atEnd (m : Setup) (hrest : c.rest = []) :
    (m.token c s).state.openedElement = none := by
  obtain ⟨stage, hstate, -⟩ := m.token_atEnd (s := s) hrest
  rw [hstate]
  exact State.openedElement_of_not_opened rfl

/-- **A call that opens an element parks the state in it.** The name is
that of the tag being read. -/
theorem Setup.parkedIn_token (m : Setup) (hc : c.token = []) {element : String}
    (h : (m.token c s).state.openedElement = some element) :
    (m.token c s).state.ParkedIn element ∧ s.stage.Named ∧ s.tagName.getD "" = element := by
  have hrest : c.rest ≠ [] := by
    intro hnil
    rw [m.openedElement_token_atEnd hnil] at h
    simp at h
  obtain ⟨hopened, hinnermost⟩ := State.openedElement_eq_some h
  obtain ⟨hend, hnamed, hname, -⟩ := (m.openedElement_token_iff hc hrest).mp h
  refine ⟨⟨(m.joins_token hc hrest hend).2.1, ?_, ?_, hopened, hinnermost⟩, hnamed, hname⟩
  all_goals
    cases m.tagMove_token (s := s) hc hrest with
    | lexeme hl _ _ hstage _ _ hstate =>
      obtain rfl := Option.some.inj (hl.symm.trans hend)
      rcases m.flavour.step_of_named .endTag (m.token c s).cursor (hstage ▸ hnamed) with
        ⟨-, hstep⟩ | ⟨hself, -⟩ | ⟨hne, -⟩
      · rw [hstate, hstep]
        simp
      · simp at hself
      · exact absurd rfl hne
    | givesUp hl => simp [hl] at hend
    | aside hl => simp [hl] at hend

end Markup

/-! ## The tokenizers of the regions -/

/-- A script keeps the column it was started with. -/
theorem Script.baseIndent_token (c : Cursor) (s : Script.State) :
    (Script.token c s).state.baseIndent = s.baseIndent := by
  unfold Script.token
  split
  · rfl
  · rfl
  · unfold inCode
    split
    · rfl
    · split
      · rename_i l width _
        cases l <;> rfl
      · split <;> rfl

/-- And so does a stylesheet. -/
theorem Stylesheet.baseIndent_token (c : Cursor) (s : Stylesheet.State) :
    (Stylesheet.token c s).state.baseIndent = s.baseIndent := by
  unfold Stylesheet.token
  split
  · rfl
  · unfold inRules
    split
    · rfl
    · split
      · rename_i l width _
        cases l with
        | colon =>
          simp only [finish, afterLexeme]
          split <;> rfl
        | _ => rfl
      · rfl

namespace Mixed

/-- The column of unindented content in a region, where its tokenizer keeps
one. -/
def Region.baseIndent? : Region Script.State Stylesheet.State → Option Nat
  | .script s => some s.baseIndent
  | .style s => some s.baseIndent
  | .unknown => none

/-- **What a call of the html composite keeps.** Tags are well named, and
while a region is open the host is parked in its element, and the region's
column is the one that the host gives. -/
structure State.Consistent (o : Options)
    (s : State Markup.State Script.State Stylesheet.State) : Prop where
  wellNamed : s.host.WellNamed
  parked : ∀ r, s.region = some r → s.host.ParkedIn r.element.name
  seeded : ∀ r n, s.region = some r → r.baseIndent? = some n →
    n = ((Markup.html o).indent s.host []).getD 0

namespace Composite

variable (o : Options) (types : TypePatterns)
variable {s : State Markup.State Script.State Stylesheet.State} {c : Cursor}
variable {r : Region Script.State Stylesheet.State}

/-- A region is opened for its element in any case, at the column that the
host gives. -/
theorem regionOf?_eq_some {element : String} {line : List Char} {host : Markup.State}
    (h : (html o types).regionOf? element line host = some r) :
    element.toList.map Char.toLower = r.element.name.toList ∧
      ∀ n, r.baseIndent? = some n → n = ((Markup.html o).indent host []).getD 0 := by
  have hcolumn : (html o types).regionIndent host = ((Markup.html o).indent host []).getD 0 := rfl
  simp only [regionOf?] at h
  split at h
  · rename_i hname
    split at h
    · obtain rfl := Option.some.inj h
      refine ⟨hname, ?_⟩
      rintro n hn
      rw [← hcolumn]
      exact (Option.some.inj hn).symm
    · simp at h
    · obtain rfl := Option.some.inj h
      exact ⟨hname, fun n hn => by simp [Region.baseIndent?] at hn⟩
  · split at h
    · rename_i hname
      obtain rfl := Option.some.inj h
      refine ⟨hname, ?_⟩
      rintro n hn
      rw [← hcolumn]
      exact (Option.some.inj hn).symm
    · simp at h

/-- The tokenizer of a region leaves it the element's, at its column. -/
theorem element_regionToken (c : Cursor) (r : Region Script.State Stylesheet.State) :
    ((html o types).regionToken c r).state.element = r.element ∧
      ((html o types).regionToken c r).state.baseIndent? = r.baseIndent? := by
  cases r with
  | script s => exact ⟨rfl, congrArg some (Script.baseIndent_token c s)⟩
  | style s => exact ⟨rfl, congrArg some (Stylesheet.baseIndent_token c s)⟩
  | unknown => exact ⟨rfl, rfl⟩

/-- **A call of the host** enters a region parked in its element. -/
theorem consistent_hostToken (hc : c.token = []) {host : Markup.State} (h : host.WellNamed) :
    ((html o types).hostToken c host).state.Consistent o := by
  have hentry : ∀ r, ((html o types).hostToken c host).state.region = some r →
      ((Markup.Setup.ofOptions .html o).token c host).state.ParkedIn r.element.name ∧
        ∀ n, r.baseIndent? = some n → n = ((Markup.html o).indent
          ((Markup.Setup.ofOptions .html o).token c host).state []).getD 0 := by
    intro r hr
    obtain ⟨element, hopened, hregion⟩ := Option.bind_eq_some_iff.mp hr
    obtain ⟨hname, hcolumn⟩ := regionOf?_eq_some o types hregion
    obtain ⟨hparked, hnamed, hread⟩ := (Markup.Setup.ofOptions .html o).parkedIn_token hc hopened
    -- the element has the name that was read, which is in lower case
    obtain ⟨name, hin⟩ := h.settled hnamed
    obtain rfl : name = element := by rwa [hin.tagName] at hread
    rw [h.lower name hin] at hname
    rw [← String.toList_inj.mp hname]
    exact ⟨hparked, hcolumn⟩
  refine ⟨?_, fun r hr => (hentry r hr).1, fun r n hr => (hentry r hr).2 n⟩
  exact (Markup.Setup.ofOptions .html o).wellNamed_token rfl hc h

/-- **Every call keeps the state consistent**, the host's and the
regions'. -/
theorem consistent_token (hc : c.token = []) (h : s.Consistent o) :
    ((html o types).token c s).state.Consistent o := by
  cases hr : s.region with
  | none =>
    rw [Composite.token, hr]
    exact consistent_hostToken o types hc h.wellNamed
  | some r =>
    by_cases hcloses : r.element.Closes c.rest
    · rw [token_of_closes hr hcloses]
      exact consistent_hostToken o types hc h.wellNamed
    · rw [token_of_not_closes hr hcloses]
      obtain ⟨helement, hcolumn⟩ := element_regionToken o types c r
      refine ⟨h.wellNamed, ?_, ?_⟩
      · intro r' hr'
        obtain rfl := Option.some.inj hr'
        rw [helement]
        exact h.parked r hr
      · intro r' n hr' hn
        obtain rfl := Option.some.inj hr'
        rw [hcolumn] at hn
        exact h.seeded r n hr hn

/-- **And so does every sequence of calls.** -/
theorem consistent_of_reachable (h : (html o types).tokenizer.Reachable s) : s.Consistent o := by
  induction h with
  | start baseIndent =>
    exact ⟨Markup.State.wellNamed_initial baseIndent, fun r hr => by simp [tokenizer, start] at hr,
      fun r n hr => by simp [tokenizer, start] at hr⟩
  | call _ hc ih => exact consistent_token o types hc ih

/-- **The host is parked while a region is open.** In every state that
calls of the html composite lead to, if a region is open then the host
stands right after an opening tag: in text, at the base stage, without a
tag name, with an element just opened, and that element, `script` or
`style`, is the region's. The column of unindented content that the
region's tokenizer holds is the one that the host state gives a line
without text, or zero where it gives none. -/
theorem host_parked_in_region (h : (html o types).tokenizer.Reachable s)
    (hr : s.region = some r) :
    s.host.ParkedIn r.element.name ∧
      ∀ n, r.baseIndent? = some n → n = ((html o types).host.indent s.host []).getD 0 :=
  ⟨(consistent_of_reachable o types h).parked r hr,
    fun n => (consistent_of_reachable o types h).seeded r n hr⟩

/-- On the lines of a script in an indented element the host stays parked,
and the script keeps its column. -/
theorem host_parked_in_nested_script :
    (html {} .standard).tokenizer.Reachable (leftBy ["<div>", "  <script>", "f(", "'</i>'"]) ∧
      (leftBy ["<div>", "  <script>", "f(", "'</i>'"]).host.ParkedIn "script" ∧
      ∃ js, (leftBy ["<div>", "  <script>", "f(", "'</i>'"]).region = some (.script js) ∧
        js.baseIndent = 4 ∧ js.baseIndent = ((html {} .standard).host.indent
          (leftBy ["<div>", "  <script>", "f(", "'</i>'"]).host []).getD 0 := by
  have hreach : (html {} .standard).tokenizer.Reachable
      (leftBy ["<div>", "  <script>", "f(", "'</i>'"]) := .readLines (.start 0) 0 _
  have hregion : (leftBy ["<div>", "  <script>", "f(", "'</i>'"]).region =
      some (.script ⟨.code, [⟨')', 0⟩], 4, 0, .other⟩) := by
    decide +kernel
  obtain ⟨hparked, hcolumn⟩ := host_parked_in_region {} .standard hreach hregion
  exact ⟨hreach, hparked, _, hregion, rfl, hcolumn 4 rfl⟩

end Composite

end Mixed

end MixedMarkup
