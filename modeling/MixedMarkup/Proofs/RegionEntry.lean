import MixedMarkup.Proofs.History
import MixedMarkup.Proofs.LetterCase
import MixedMarkup.Proofs.RegionExit
/-!
# Mixed documents — how a region is entered

The history of a call tells which tag its `>` ends: the last delimiter
before it begins the tag, and the first word after that is the name. The
host carries this over from call to call in its stage and its name, and
`Tracks` says that they agree with the history, whatever markup the
document has. `region_entry` reads off which tags enter a region. They
are those of a script or a style whose delimiter is `<`, and also those
whose delimiter is `</`, where a tag before them was given no name: the
name is then still awaited (`NameAwaited`), and the closing tag gives it.
-/

namespace MixedMarkup

/-! ## The last of a kind -/

/-- Some element is marked by `P`, with the elements before it, and from
there on all elements satisfy `Q`. -/
def Since {α : Type} (P : List α → α → Prop) (Q : α → Prop) (xs : List α) : Prop :=
  ∃ older x newer, xs = older ++ x :: newer ∧ P older x ∧ ∀ y ∈ newer, Q y

namespace Since

variable {α : Type} {P : List α → α → Prop} {Q : α → Prop} {xs : List α} {x : α}

theorem not_nil : ¬ Since P Q [] := by
  rintro ⟨older, x, newer, h, -⟩
  simp at h

/-- **One more element** is marked itself, or keeps the mark. -/
theorem concat_iff : Since P Q (xs ++ [x]) ↔ P xs x ∨ Since P Q xs ∧ Q x := by
  constructor
  · rintro ⟨older, y, newer, h, hy, hnewer⟩
    -- the marked element is the last one, or stands before it
    rcases List.eq_nil_or_concat newer with rfl | ⟨newer, z, rfl⟩
    · obtain ⟨rfl, hxy⟩ := List.append_inj' h rfl
      obtain rfl := List.singleton_inj.mp hxy
      exact .inl hy
    · rw [List.concat_eq_append, ← List.cons_append, ← List.append_assoc] at h
      obtain ⟨rfl, hxz⟩ := List.append_inj' h rfl
      obtain rfl := List.singleton_inj.mp hxz
      refine .inr ⟨⟨older, y, newer, rfl, hy, ?_⟩, hnewer x (by simp)⟩
      intro w hw
      exact hnewer w (by simp [hw])
  · rintro (hx | ⟨⟨older, y, newer, rfl, hy, hnewer⟩, hx⟩)
    · exact ⟨xs, x, [], rfl, hx, by simp⟩
    · refine ⟨older, y, newer ++ [x], by simp, hy, ?_⟩
      intro w hw
      rcases List.mem_append.mp hw with hw | hw
      · exact hnewer w hw
      · rw [List.mem_singleton.mp hw]
        exact hx

end Since

namespace Mixed

open Markup (Lexeme Setup)

/-- A script or style tag of the given spelling, on the line of its end,
has a body of its own grammar. -/
def TypePatterns.Embeds (types : TypePatterns) (line spelling : List Char) : Prop :=
  spelling.map Char.toLower = EmbeddingElement.script.name.toList ∧
      types.kindOnLine line ≠ .template ∨
    spelling.map Char.toLower = EmbeddingElement.style.name.toList

theorem State.active_eq_host_iff {η σ κ : Type} {s : State η σ κ} :
    s.active = .host ↔ s.region = none := by
  cases hr : s.region with
  | none => simp [State.active, hr]
  | some r => simp [State.active_of_region hr, r.grammar_ne_host]

namespace Composite

variable {σ κ φ : Type} (m : Composite Markup.State σ κ φ)

/-! ## Calls and tags -/

/-- The lexeme that a call reads; `none` where the host does not answer
it. -/
def lexemeOf (k : Call (State Markup.State σ κ)) : Option Lexeme :=
  if (m.tokenizer.stepOf k).state.last = .host then Markup.lexemeAt k.cursor k.state.host else none

/-- A call reads the text as the lexeme. -/
@[mk_iff]
structure Reads (k : Call (State Markup.State σ κ)) (l : Lexeme) (text : List Char) : Prop where
  lexeme : m.lexemeOf k = some l
  text : m.tokenizer.textOf k = text

/-- A call reads a `<` inside a tag, which gives the tag up. -/
def GivesUp (k : Call (State Markup.State σ κ)) : Prop :=
  (m.tokenizer.stepOf k).state.last = .host ∧ Markup.GivesUp k.cursor k.state.host

/-- A call reads a delimiter, or a `<` that gives a tag up. -/
def BeginsTag (k : Call (State Markup.State σ κ)) : Prop :=
  m.lexemeOf k = some .openTag ∨ m.lexemeOf k = some .closeTag ∨ m.GivesUp k

/-- After the calls a name is awaited: an opening delimiter was read outside
tags, and since then no word has come and no tag was given up. -/
def NameAwaited : List (Call (State Markup.State σ κ)) → Prop :=
  Since (fun _ k => m.lexemeOf k = some .openTag ∧ k.state.host.stage = .base)
    fun k => m.lexemeOf k ≠ some .word ∧ ¬ m.GivesUp k

/-- A delimiter after which the next word is the name of an opening tag: a
`<` outside tags, and any delimiter where a name is awaited already. -/
def TakesName (prior : List (Call (State Markup.State σ κ)))
    (k : Call (State Markup.State σ κ)) : Prop :=
  m.Reads k .openTag ['<'] ∧ (k.state.host.stage = .base ∨ m.NameAwaited prior) ∨
    m.Reads k .closeTag ['<', '/'] ∧ m.NameAwaited prior

/-- After the calls a tag has begun that has no name yet. -/
def TagBegun : List (Call (State Markup.State σ κ)) → Prop :=
  Since m.TakesName fun k => m.lexemeOf k ≠ some .word ∧ ¬ m.BeginsTag k

/-- After the calls the last tag that has begun has the name. -/
def TagNamed (spelling : List Char) : List (Call (State Markup.State σ κ)) → Prop :=
  Since (fun earlier k => m.Reads k .word spelling ∧ m.TagBegun earlier) fun k => ¬ m.BeginsTag k

/-! ## One call -/

variable {m} {setup : Setup} {calls : List (Call (State Markup.State σ κ))}
variable {k : Call (State Markup.State σ κ)}

/-- **A call is the host's or a region's.** The host's calls are made
outside regions and on closing tags; a call of a region leaves the host
as it was. -/
theorem token_cases (c : Cursor) (s : State Markup.State σ κ) :
    m.token c s = m.hostToken c s.host ∧
        (s.region = none ∨ ∃ r, s.region = some r ∧ r.element.Closes c.rest) ∨
      ∃ r r', s.region = some r ∧ (m.token c s).state = ⟨s.host, some r', r.grammar⟩ := by
  cases hr : s.region with
  | none => exact .inl ⟨by rw [token, hr], .inl rfl⟩
  | some r =>
    by_cases hcloses : r.element.Closes c.rest
    · exact .inl ⟨token_of_closes hr hcloses, .inr ⟨r, rfl, hcloses⟩⟩
    · exact .inr ⟨r, _, rfl, by rw [token_of_not_closes hr hcloses]⟩

theorem stepOf_of_last (h : (m.tokenizer.stepOf k).state.last = .host) :
    m.tokenizer.stepOf k = m.hostToken k.cursor k.state.host := by
  rcases token_cases (m := m) k.cursor k.state with ⟨htoken, -⟩ | ⟨r, r', -, hstate⟩
  · exact htoken
  · have hlast : (m.tokenizer.stepOf k).state.last = r.grammar := congrArg State.last hstate
    exact absurd (hlast.symm.trans h) r.grammar_ne_host

theorem last_of_lexemeOf {l : Lexeme} (h : m.lexemeOf k = some l) :
    (m.tokenizer.stepOf k).state.last = .host := by
  unfold lexemeOf at h
  split at h
  · assumption
  · simp at h

theorem lexemeOf_of_last (h : (m.tokenizer.stepOf k).state.last = .host) :
    m.lexemeOf k = Markup.lexemeAt k.cursor k.state.host := by
  rw [lexemeOf, if_pos h]

section Host

variable (hhost : m.host = setup.tokenizer) (hk : k.Begins)
include hhost hk

/-- The zones around a lexeme, and its text. -/
theorem joins_stepOf {l : Lexeme} (h : m.lexemeOf k = some l) :
    l.Joins k.state.host.zone (m.tokenizer.stepOf k).state.host.zone
      (m.tokenizer.textOf k) := by
  have hlast := last_of_lexemeOf h
  rw [lexemeOf_of_last hlast] at h
  have hjoins := setup.joins_token hk.token hk.rest h
  rw [Tokenizer.textOf, stepOf_of_last hlast]
  simp only [hostToken, hhost]
  exact hjoins

/-- Where a lexeme has one text only, reading the lexeme is reading that
text. -/
theorem reads_iff_lexemeOf {l : Lexeme} {text : List Char}
    (hl : ∀ z z' read, l.Joins z z' read → read = text) :
    m.Reads k l text ↔ m.lexemeOf k = some l := by
  constructor
  · intro h
    exact h.lexeme
  · intro h
    exact ⟨h, hl _ _ _ (joins_stepOf hhost hk h)⟩

omit hhost in
theorem lexemeOf_of_givesUp (h : m.GivesUp k) : m.lexemeOf k = none := by
  rw [lexemeOf_of_last h.1]
  exact Markup.lexemeAt_of_givesUp hk.token hk.rest h.2

/-- A delimiter takes a name if one is awaited after it. -/
theorem takesName_iff : m.TakesName calls k ↔
    m.NameAwaited (calls ++ [k]) ∧
      (m.lexemeOf k = some .openTag ∨ m.lexemeOf k = some .closeTag) := by
  have hgives : m.lexemeOf k ≠ none → ¬ m.GivesUp k := mt (lexemeOf_of_givesUp hk)
  have hopen := reads_iff_lexemeOf hhost hk (l := .openTag) fun _ _ _ h => h.2.2
  have hclose := reads_iff_lexemeOf hhost hk (l := .closeTag) fun _ _ _ h => h.2.2
  rw [TakesName, NameAwaited, Since.concat_iff, hopen, hclose]
  constructor
  · rintro (⟨hopen, hbase | hawaited⟩ | ⟨hclose, hawaited⟩)
    · exact ⟨.inl ⟨hopen, hbase⟩, .inl hopen⟩
    · exact ⟨.inr ⟨hawaited, by simp [hopen], hgives (by simp [hopen])⟩, .inl hopen⟩
    · exact ⟨.inr ⟨hawaited, by simp [hclose], hgives (by simp [hclose])⟩, .inr hclose⟩
  · rintro ⟨⟨hopen, hbase⟩ | ⟨hawaited, -⟩, hdelimiter⟩
    · exact .inl ⟨hopen, .inl hbase⟩
    · rcases hdelimiter with hopen | hclose
      · exact .inl ⟨hopen, .inr hawaited⟩
      · exact .inr ⟨hclose, hawaited⟩

/-- **A name is awaited where a tag has begun that has none**, after one
more call as before it. -/
theorem nameAwaited_concat_iff_tagBegun (h : m.NameAwaited calls ↔ m.TagBegun calls) :
    m.NameAwaited (calls ++ [k]) ↔ m.TagBegun (calls ++ [k]) := by
  rw [TagBegun, Since.concat_iff, takesName_iff hhost hk, ← TagBegun, ← h]
  constructor
  · intro hawaited
    by_cases hdelimiter : m.lexemeOf k = some .openTag ∨ m.lexemeOf k = some .closeTag
    · exact .inl ⟨hawaited, hdelimiter⟩
    · rcases Since.concat_iff.mp hawaited with ⟨hopen, -⟩ | ⟨hbefore, hword, hgives⟩
      · exact absurd (.inl hopen) hdelimiter
      · refine .inr ⟨hbefore, hword, ?_⟩
        rintro (hopen | hclose | hgives')
        · exact hdelimiter (.inl hopen)
        · exact hdelimiter (.inr hclose)
        · exact hgives hgives'
  · rintro (⟨hawaited, -⟩ | ⟨hbefore, hword, hbegins⟩)
    · exact hawaited
    · refine Since.concat_iff.mpr (.inr ⟨hbefore, hword, ?_⟩)
      intro hgives
      exact hbegins (.inr (.inr hgives))

end Host

/-! ## The history and the host's state -/

/-- The stage, the zone and the name in a state of the host are those of
the tag that the calls before it were reading. -/
structure Tracks (m : Composite Markup.State σ κ φ) (f : Markup.Flavour)
    (calls : List (Call (State Markup.State σ κ))) (host : Markup.State) : Prop where
  settled : host.Settled
  awaited : host.stage = .tagName ↔ m.NameAwaited calls
  begun : m.NameAwaited calls ↔ m.TagBegun calls
  named : ∀ name, host.InNamedTag name ↔
    host.zone.InTag ∧ ∃ spelling, m.TagNamed spelling calls ∧ f.elementName spelling = name

/-- Before the first call there is no tag. -/
theorem tracks_start (f : Markup.Flavour) (baseIndent : Nat) :
    m.Tracks f [] (.initial baseIndent) where
  settled := by
    intro h
    simp [Markup.State.initial, Markup.Stage.Named] at h
  awaited := by
    constructor
    · intro h
      simp [Markup.State.initial] at h
    · intro h
      exact absurd h Since.not_nil
  begun := ⟨fun h => absurd h Since.not_nil, fun h => absurd h Since.not_nil⟩
  named := by
    intro name
    constructor
    · intro h
      have := h.zone
      simp [Markup.State.initial, Markup.Zone.InTag] at this
    · rintro ⟨hzone, -⟩
      simp [Markup.State.initial, Markup.Zone.InTag] at hzone

/-- **A call of the host** changes the state as its lexeme changes the
history. -/
theorem Tracks.hostCall (hhost : m.host = setup.tokenizer) (hk : k.Begins)
    (hlast : (m.tokenizer.stepOf k).state.last = .host)
    (h : m.Tracks setup.flavour calls k.state.host) :
    m.Tracks setup.flavour (calls ++ [k]) (m.tokenizer.stepOf k).state.host := by
  have hstate : (m.tokenizer.stepOf k).state.host = (setup.token k.cursor k.state.host).state := by
    rw [stepOf_of_last hlast]
    simp only [hostToken, hhost]
    rfl
  have htext : m.tokenizer.textOf k = (setup.token k.cursor k.state.host).cursor.token := by
    rw [Tokenizer.textOf, stepOf_of_last hlast]
    simp only [hostToken, hhost]
    rfl
  have hlexeme := lexemeOf_of_last hlast
  have hgives : m.GivesUp k ↔ Markup.GivesUp k.cursor k.state.host :=
    ⟨fun h => h.2, fun h => ⟨hlast, h⟩⟩
  have hbegins : m.BeginsTag k ↔ Markup.BeginsTag k.cursor k.state.host := by
    simp only [BeginsTag, Markup.BeginsTag, hlexeme, hgives]
  refine ⟨?_, ?_, nameAwaited_concat_iff_tagBegun hhost hk h.begun, ?_⟩
  · rw [hstate]
    exact setup.settled_token hk.token hk.rest h.settled
  · rw [hstate, setup.stage_token_eq_tagName_iff hk.token hk.rest, NameAwaited, Since.concat_iff,
      ← NameAwaited, ← h.awaited, hlexeme, hgives]
  · intro name
    rw [hstate, setup.inNamedTag_token_iff hk.token hk.rest h.settled, h.named, ← hlexeme,
      ← htext, ← hbegins]
    -- both sides grow by the name that was awaited, or keep the one they had
    constructor
    · rintro (⟨hword, hstage, hname⟩ | ⟨⟨-, spelling, htag, hname⟩, hnot, hzone⟩)
      · have hjoins := joins_stepOf hhost hk hword
        rw [hstate] at hjoins
        refine ⟨hjoins.inTag_after (by decide) (by decide), m.tokenizer.textOf k, ?_, hname⟩
        exact Since.concat_iff.mpr (.inl ⟨⟨hword, rfl⟩, h.begun.mp (h.awaited.mp hstage)⟩)
      · exact ⟨hzone, spelling, Since.concat_iff.mpr (.inr ⟨htag, hnot⟩), hname⟩
    · rintro ⟨hzone, spelling, htag, hname⟩
      rcases Since.concat_iff.mp htag with ⟨hreads, hbegun⟩ | ⟨hbefore, hnot⟩
      · refine .inl ⟨hreads.lexeme, h.awaited.mpr (h.begun.mpr hbegun), ?_⟩
        rw [hreads.text, hname]
      · have hinside := setup.inTag_of_inTag_token hk.token hk.rest (mt hbegins.mpr hnot) hzone
        exact .inr ⟨⟨hinside, spelling, hbefore, hname⟩, hnot, hzone⟩

/-- **A call of a region** changes neither. -/
theorem Tracks.regionCall {f : Markup.Flavour}
    (hlast : (m.tokenizer.stepOf k).state.last ≠ .host) (h : m.Tracks f calls k.state.host) :
    m.Tracks f (calls ++ [k]) (m.tokenizer.stepOf k).state.host := by
  have hstate : (m.tokenizer.stepOf k).state.host = k.state.host := by
    rcases token_cases (m := m) k.cursor k.state with ⟨htoken, -⟩ | ⟨r, r', -, hstate⟩
    · exact absurd (congrArg (fun step => step.state.last) htoken) hlast
    · change (m.token k.cursor k.state).state.host = k.state.host
      rw [hstate]
  have hlexeme : m.lexemeOf k = none := by rw [lexemeOf, if_neg hlast]
  have hgives : ¬ m.GivesUp k := fun h => hlast h.1
  have hbegins : ¬ m.BeginsTag k := by simp [BeginsTag, hlexeme, hgives]
  -- the call is neither a mark of a tag nor an end of one
  have hawaited : m.NameAwaited (calls ++ [k]) ↔ m.NameAwaited calls := by
    rw [NameAwaited, Since.concat_iff]
    simp [hlexeme, hgives]
  have hbegun : m.TagBegun (calls ++ [k]) ↔ m.TagBegun calls := by
    rw [TagBegun, Since.concat_iff]
    simp [TakesName, hlexeme, hbegins, reads_iff]
  rw [hstate]
  refine ⟨h.settled, h.awaited.trans hawaited.symm, ?_, ?_⟩
  · rw [hawaited, hbegun]
    exact h.begun
  · intro name
    rw [h.named]
    simp [TagNamed, Since.concat_iff, hlexeme, hbegins, reads_iff]

/-- **A call keeps the state and the history together.** -/
theorem Tracks.call (hhost : m.host = setup.tokenizer) (hk : k.Begins)
    (h : m.Tracks setup.flavour calls k.state.host) :
    m.Tracks setup.flavour (calls ++ [k]) (m.tokenizer.stepOf k).state.host := by
  by_cases hlast : (m.tokenizer.stepOf k).state.last = .host
  · exact h.hostCall hhost hk hlast
  · exact h.regionCall hlast

/-- **And so does a history.** -/
theorem tracks_of_history (hhost : m.host = setup.tokenizer) {baseIndent : Nat}
    {s : State Markup.State σ κ} (h : m.tokenizer.History (m.start baseIndent) calls s) :
    m.Tracks setup.flavour calls s.host := by
  induction h with
  | start =>
    simp only [start, hhost]
    exact tracks_start setup.flavour baseIndent
  | call _ hk ih => exact ih.call hhost hk

/-! ## Entry -/

/-- The opening tags that open a region are those of a body of its own
grammar. -/
theorem regionOf?_ne_none_iff (spelling line : List Char) (host : Markup.State) :
    m.regionOf? (Markup.Flavour.html.elementName spelling) line host ≠ none ↔
      m.types.Embeds line spelling := by
  have hlower : (Markup.Flavour.html.elementName spelling).toList.map Char.toLower =
      spelling.map Char.toLower := by
    simp only [Markup.Flavour.elementName, String.toList_ofList, map_toLower_map_toLower]
  have hdistinct : EmbeddingElement.style.name.toList ≠ EmbeddingElement.script.name.toList := by
    decide
  simp only [regionOf?, hlower, TypePatterns.Embeds]
  by_cases hscript : spelling.map Char.toLower = EmbeddingElement.script.name.toList
  · rw [if_pos hscript]
    cases m.types.kindOnLine line <;> simp [hscript, hdistinct.symm]
  · rw [if_neg hscript]
    split <;> simp_all

/-- Neither element is one without a body. -/
theorem isVoid_of_embeds {types : TypePatterns} {line spelling : List Char}
    (h : types.Embeds line spelling) :
    Markup.Flavour.html.isVoid (Markup.Flavour.html.elementName spelling) = false := by
  rw [Markup.Flavour.elementName]
  rcases h with ⟨hname, -⟩ | hname
  · rw [hname]
    decide
  · rw [hname]
    decide

/-- A call of the host enters a region if it opens an element of an
embedding name. -/
theorem region_stepOf_ne_none_iff (hhost : m.host = setup.tokenizer)
    (hflavour : setup.flavour = .html) (hk : k.Begins)
    (hlast : (m.tokenizer.stepOf k).state.last = .host)
    (h : m.Tracks setup.flavour calls k.state.host) :
    (m.tokenizer.stepOf k).state.region ≠ none ↔
      m.lexemeOf k = some .endTag ∧
        ∃ spelling, m.TagNamed spelling calls ∧ m.types.Embeds k.cursor.line spelling := by
  have hline : (setup.token k.cursor k.state.host).cursor.line = k.cursor.line := by
    obtain ⟨text, -, htook⟩ := setup.tokenizer_consumes k.cursor k.state.host hk.token hk.rest
    exact htook.line
  have hregion : (m.tokenizer.stepOf k).state.region =
      (setup.token k.cursor k.state.host).state.openedElement.bind fun e =>
        m.regionOf? e k.cursor.line (setup.token k.cursor k.state.host).state := by
    rw [stepOf_of_last hlast, ← hline]
    simp only [hostToken, hhost]
    rfl
  rw [hregion, lexemeOf_of_last hlast]
  constructor
  · intro hsome
    obtain ⟨e, he, hopens⟩ : ∃ e, (setup.token k.cursor k.state.host).state.openedElement = some e ∧
        m.regionOf? e k.cursor.line (setup.token k.cursor k.state.host).state ≠ none := by
      simpa [Option.bind_eq_none_iff] using hsome
    obtain ⟨hend, hnamed, hname, -⟩ := (setup.openedElement_token_iff hk.token hk.rest).mp he
    -- the name in the state is the one that the history tells
    obtain ⟨name, hin⟩ := h.settled hnamed
    obtain ⟨-, spelling, htag, hspelling⟩ := (h.named name).mp hin
    rw [hin.tagName, Option.getD_some, ← hspelling, hflavour] at hname
    refine ⟨hend, spelling, htag, ?_⟩
    rwa [← hname, regionOf?_ne_none_iff] at hopens
  · rintro ⟨hend, spelling, htag, hembeds⟩ hnone
    have hzone : k.state.host.zone = .tag := (setup.joins_token hk.token hk.rest hend).1
    have hin := (h.named _).mpr ⟨by simp [hzone, Markup.Zone.InTag], spelling, htag, rfl⟩
    have he := (setup.openedElement_token_iff hk.token hk.rest).mpr
      ⟨hend, hin.stage, by rw [hin.tagName, Option.getD_some, hflavour],
        hflavour ▸ isVoid_of_embeds hembeds⟩
    have hclosed := Option.bind_eq_none_iff.mp hnone _ he
    rw [hflavour] at hclosed
    exact (regionOf?_ne_none_iff spelling k.cursor.line _).mpr hembeds hclosed

/-- A `>` that the host reads is read outside regions, as a closing tag
begins with `<`. -/
theorem region_eq_none_of_endTag (hk : k.Begins) (h : m.lexemeOf k = some .endTag) :
    k.state.region = none := by
  have hlast := last_of_lexemeOf h
  rw [lexemeOf_of_last hlast] at h
  rcases token_cases (m := m) k.cursor k.state with
    ⟨-, hnone | ⟨r, -, hcloses⟩⟩ | ⟨r, r', -, hstate⟩
  · exact hnone
  · obtain ⟨left, hleft⟩ := hcloses.exists_cons
    have hpeek := Markup.peek?_of_endTag hk.token hk.rest h
    simp [Cursor.peek?, hleft] at hpeek
  · have : (m.tokenizer.stepOf k).state.last = r.grammar := congrArg State.last hstate
    exact absurd (this.symm.trans hlast) r.grammar_ne_host

/-- **Where a region is entered**, in terms of the history: at the end of a
tag that has the name of an embedding element. -/
theorem enters_iff (hhost : m.host = setup.tokenizer) (hflavour : setup.flavour = .html)
    (hk : k.Begins) (h : m.Tracks setup.flavour calls k.state.host) :
    k.state.active = .host ∧ (m.tokenizer.stepOf k).state.active ≠ .host ↔
      m.lexemeOf k = some .endTag ∧
        ∃ spelling, m.TagNamed spelling calls ∧ m.types.Embeds k.cursor.line spelling := by
  rw [State.active_eq_host_iff, Ne, State.active_eq_host_iff]
  constructor
  · rintro ⟨hnone, hregion⟩
    have hlast : (m.tokenizer.stepOf k).state.last = .host := by
      change (m.token k.cursor k.state).state.last = .host
      rw [token, hnone]
      rfl
    exact (region_stepOf_ne_none_iff hhost hflavour hk hlast h).mp hregion
  · intro hends
    have hlast := last_of_lexemeOf hends.1
    exact ⟨region_eq_none_of_endTag hk hends.1,
      (region_stepOf_ne_none_iff hhost hflavour hk hlast h).mpr hends⟩

/-- **Which tags enter a region.** On every document, a call goes from the
host to a region exactly if it reads a `>` that ends the tag of a style,
or of a script that is no template. The last delimiter before it began
that tag, and the first word since is its name. The delimiter is a `<`
read outside tags, or else any delimiter, `</` among them, that comes
while the name of an earlier tag is awaited. -/
theorem region_entry (o : Options) (types : TypePatterns) (baseIndent : Nat)
    (lines : List (List Char)) (earlier later : List (Call (State Markup.State _ _)))
    (k : Call (State Markup.State _ _))
    (hcalls : ((html o types).tokenizer.callsByLine 0 lines
      ((html o types).start baseIndent)).flatten = earlier ++ k :: later) :
    k.state.active = .host ∧ ((html o types).tokenizer.stepOf k).state.active ≠ .host ↔
      (html o types).Reads k .endTag ['>'] ∧
        ∃ prior delimiter gap name attributes spelling,
          earlier = prior ++ delimiter :: (gap ++ name :: attributes) ∧
          (html o types).TakesName prior delimiter ∧
          (html o types).Reads name .word spelling ∧
          (∀ j ∈ gap, (html o types).lexemeOf j ≠ some .word) ∧
          (∀ j ∈ gap ++ attributes, ¬ (html o types).BeginsTag j) ∧
          types.Embeds k.cursor.line spelling := by
  have hhost : (html o types).host = (Setup.ofOptions .html o).tokenizer := rfl
  obtain ⟨hk, hhistory⟩ :=
    Tokenizer.history_of_callsByLine lines 0 [] _ .start earlier k later hcalls
  rw [List.nil_append] at hhistory
  have hends := reads_iff_lexemeOf hhost hk (l := .endTag) fun _ _ _ h => h.2.2
  rw [enters_iff hhost rfl hk (tracks_of_history hhost hhistory), hends]
  refine and_congr_right fun _ => ?_
  constructor
  · rintro ⟨spelling, ⟨before, name, attributes, rfl, ⟨hname, prior, delimiter, gap, rfl, htakes,
      hgap⟩, hattributes⟩, hembeds⟩
    refine ⟨prior, delimiter, gap, name, attributes, spelling, by simp, htakes, hname, ?_, ?_,
      hembeds⟩
    · intro j hj
      exact (hgap j hj).1
    · intro j hj
      rcases List.mem_append.mp hj with hj | hj
      · exact (hgap j hj).2
      · exact hattributes j hj
  · rintro ⟨prior, delimiter, gap, name, attributes, spelling, rfl, htakes, hname, hgap, hbegins,
      hembeds⟩
    refine ⟨spelling, ⟨prior ++ delimiter :: gap, name, attributes, by simp, ⟨hname, prior,
      delimiter, gap, rfl, htakes, ?_⟩, ?_⟩, hembeds⟩
    · intro j hj
      exact ⟨hgap j hj, hbegins j (List.mem_append_left _ hj)⟩
    · intro j hj
      exact hbegins j (List.mem_append_right _ hj)

/-- **A closing tag enters a region.** After `<>`, which gives no name, the
name of `</script>` is the one awaited. -/
theorem region_entry_by_closing_tag :
    ∃ nameless ending delimiter name k later,
      ((html {} .standard).tokenizer.callsByLine 0 ["<></script>x".toList]
        ((html {} .standard).start 0)).flatten =
          [nameless, ending, delimiter, name] ++ k :: later ∧
      (html {} .standard).Reads delimiter .closeTag ['<', '/'] ∧
      (html {} .standard).Reads name .word "script".toList ∧
      k.state.active = .host ∧ ((html {} .standard).tokenizer.stepOf k).state.active ≠ .host := by
  have hread : (((html {} .standard).tokenizer.callsByLine 0 ["<></script>x".toList]
      ((html {} .standard).start 0)).flatten.map fun k => ((html {} .standard).lexemeOf k,
        (html {} .standard).tokenizer.textOf k, k.state.host.stage, k.cursor.peek?,
        k.cursor.line)) =
      [(some .openTag, ['<'], .base, some '<', "<></script>x".toList),
        (some .endTag, ['>'], .tagName, some '>', "<></script>x".toList),
        (some .closeTag, ['<', '/'], .tagName, some '<', "<></script>x".toList),
        (some .word, "script".toList, .tagName, some 's', "<></script>x".toList),
        (some .endTag, ['>'], .attributes, some '>', "<></script>x".toList),
        (none, ['x'], .base, some 'x', "<></script>x".toList)] := by
    decide +kernel
  obtain ⟨nameless, _, hcalls, hnameless, hread⟩ := List.map_eq_cons_iff.mp hread
  obtain ⟨ending, _, rfl, hending, hread⟩ := List.map_eq_cons_iff.mp hread
  obtain ⟨delimiter, _, rfl, hdelimiter, hread⟩ := List.map_eq_cons_iff.mp hread
  obtain ⟨name, _, rfl, hname, hread⟩ := List.map_eq_cons_iff.mp hread
  obtain ⟨k, later, rfl, hk, -⟩ := List.map_eq_cons_iff.mp hread
  simp only [Prod.mk.injEq] at hnameless hending hdelimiter hname hk
  have hname' : (html {} .standard).Reads name .word "script".toList := ⟨hname.1, hname.2.1⟩
  have hdelimiter' : (html {} .standard).Reads delimiter .closeTag ['<', '/'] :=
    ⟨hdelimiter.1, hdelimiter.2.1⟩
  have hawaited : (html {} .standard).NameAwaited [nameless, ending] := by
    refine ⟨[], nameless, [ending], rfl, ⟨hnameless.1, hnameless.2.2.1⟩, ?_⟩
    intro j hj
    obtain rfl := List.mem_singleton.mp hj
    refine ⟨by simp [hending.1], ?_⟩
    rintro ⟨-, -, hpeek⟩
    simp [hending.2.2.2.1] at hpeek
  have hembeds : TypePatterns.standard.Embeds k.cursor.line "script".toList := by
    rw [hk.2.2.2.2]
    exact .inl ⟨by decide, by decide +kernel⟩
  obtain ⟨hactive, hentered⟩ := (region_entry {} .standard 0 ["<></script>x".toList]
    [nameless, ending, delimiter, name] later k hcalls).mpr
    ⟨⟨hk.1, hk.2.1⟩, [nameless, ending], delimiter, [], name, [], "script".toList, rfl,
      .inr ⟨hdelimiter', hawaited⟩, hname', by simp, by simp, hembeds⟩
  exact ⟨nameless, ending, delimiter, name, k, later, hcalls, hdelimiter', hname', hactive,
    hentered⟩

end Composite

end Mixed

end MixedMarkup
