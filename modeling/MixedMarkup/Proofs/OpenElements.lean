import MixedMarkup.Proofs.LetterCase
import MixedMarkup.Proofs.ParkedHost
/-!
# Markup — the states of the html tokenizer

Of the states that the type allows, the html tokenizer uses few. It has the
name of a tag exactly while it reads the attributes of one, inside the tag;
the elements it holds open have names that a tag can have and bodies to be
open in, stand inside elements that they do not end, and keep their layout
exactly where a `pre` is open; and it reports an opened element only where
the element's tag has just ended (`html_state_wellFormed`).

The invariant is `State.WellFormed`, and a call keeps it
(`Setup.wellFormed_token`). For the open elements that takes one fact on
what a call does to them: it closes some, or it opens one inside what the
new element's tag leaves open (`Setup.context_token`).
-/

namespace MixedMarkup

open Cursor Text

namespace Markup

variable {c d : Cursor} {s : State}

/-! ## Names -/

/-- A name as the html flavour reads it off a tag: a word in lower case. -/
structure IsTagName (name : String) : Prop where
  nonempty : name ≠ ""
  lower : name.toList.map Char.toLower = name.toList
  wordChars : ∀ x ∈ name.toList, isWordChar x = true

/-- A word makes such a name. -/
theorem isTagName_elementName {spelling : List Char} (hne : spelling ≠ [])
    (hspelling : ∀ x ∈ spelling, isWordChar x = true) :
    IsTagName (Flavour.html.elementName spelling) where
  nonempty h := by
    have hnil := congrArg String.toList h
    simp [Flavour.elementName, hne] at hnil
  lower := Flavour.map_toLower_elementName spelling
  wordChars := by
    simp only [Flavour.elementName, String.toList_ofList, List.mem_map]
    rintro _ ⟨x, hx, rfl⟩
    rw [isWordChar_toLower]
    exact hspelling x hx

/-- What is left of a token when part of it is given back. -/
theorem mem_token_of_unread {n : Nat} {x : Char} (h : x ∈ (c.unread n).token) : x ∈ c.token := by
  rw [← splitBytes_append (byteSize c.token - n) c.token]
  exact List.mem_append_left _ h

/-- No blank comes first where there are no blanks to read. -/
theorem isBlank_of_readBlanks?_eq_none {ch : Char} (hblanks : c.readBlanks? = none)
    (hpeek : c.peek? = some ch) : isBlank ch = false := by
  cases hch : isBlank ch with
  | false => rfl
  | true => simp [readBlanks?, readWhile?, readIf?, hpeek, hch] at hblanks

/-- **The text of a word** is made of the characters of words. -/
theorem isWordChar_of_word (hc : c.token = []) (hblanks : c.readBlanks? = none)
    (h : (inTag c s).lexeme = some .word) :
    ∀ x ∈ (inTag c s).cursor.token, isWordChar x = true := by
  revert h
  unfold inTag
  split
  · simp
  rename_i ch d hd
  obtain ⟨hpeek, rfl⟩ := next?_eq_some hd
  have hblank := isBlank_of_readBlanks?_eq_none hblanks hpeek
  -- every branch but the last one reads another lexeme
  split
  · simp
  rename_i hend
  split
  · simp
  rename_i hequals
  split
  · simp
  rename_i hlt
  split
  · simp [inValue]
  rename_i hquote
  split
  · simp
  intro _ x hx
  have hx := mem_token_of_unread hx
  rw [(took_skip isWordChar _).token, (took_read_one hpeek).token, hc, List.nil_append] at hx
  rcases List.mem_append.mp hx with hfirst | hlater
  · obtain rfl := List.mem_singleton.mp hfirst
    simp only [beq_iff_eq, Bool.or_eq_true, not_or] at hend hequals hlt hquote
    simp [isWordChar, hblank, hend, hequals, hlt, hquote]
  · exact List.mem_takeWhile_imp hlater

/-- So the name of a tag is one that the html flavour can read. -/
theorem Setup.isTagName_of_word (m : Setup) (hc : c.token = []) (hrest : c.rest ≠ [])
    (h : lexemeAt c s = some .word) :
    IsTagName (Flavour.html.elementName (m.token c s).cursor.token) := by
  obtain ⟨text, hne, htook⟩ := m.tokenizer_consumes c s hc hrest
  have htoken : (m.token c s).cursor.token ≠ [] := by
    have htext : (m.token c s).cursor.token = text := by
      have := htook.token
      rwa [hc, List.nil_append] at this
    rwa [htext]
  refine isTagName_elementName htoken ?_
  unfold lexemeAt at h
  split at h
  · simp at h
  · rename_i hblanks
    cases fits_readPiece (s := enter c s) hc hrest with
    | lexeme hl _ hjoins _ =>
      obtain rfl := Option.some.inj (hl.symm.trans h)
      have hpiece : readPiece c (enter c s) = inTag c (enter c s) := by
        simp only [readPiece, hjoins.1]
      have hcursor : (m.token c s).cursor = (inTag c (enter c s)).cursor := by
        rw [hpiece] at hl
        simp only [token, hblanks, hpiece, hl]
      rw [hpiece] at h
      rw [hcursor]
      exact isWordChar_of_word hc hblanks h
    | givesUp hl => simp [hl] at h
    | aside _ haside => simp [haside.lexeme] at h

/-! ## The chain of open elements -/

/-- An element that the html flavour can hold open. -/
structure Element.IsOpenable (e : Element) : Prop where
  name : IsTagName e.name
  body : Flavour.html.isVoid e.name = false

/-- Open elements, innermost first. Each can be open, does not end the one
around it, and keeps its layout exactly if it is a `pre` or stands in
one. -/
inductive WellNested : List Element → Prop
  | nil : WellNested []
  | cons {e : Element} {outer : List Element} : e.IsOpenable →
      (∀ parent ∈ outer.head?, Flavour.html.grabs parent.name e.name = false) →
      (e.keepsLayout = true ↔ e.name = "pre" ∨ ∃ o ∈ outer, o.name = "pre") →
      WellNested outer → WellNested (e :: outer)

namespace WellNested

variable {e : Element} {context outer inner : List Element}

/-- What is left when elements are closed. -/
theorem suffix (h : WellNested context) (hsuffix : outer <:+ context) : WellNested outer := by
  induction h with
  | nil =>
    rw [List.suffix_nil.mp hsuffix]
    exact .nil
  | @cons e rest hopen hgrabs hlayout hrest ih =>
    rcases List.suffix_cons_iff.mp hsuffix with rfl | hsuffix
    · exact .cons hopen hgrabs hlayout hrest
    · exact ih hsuffix

/-- The elements around one of them leave a mark on it if a `pre` is among
them. -/
theorem any_keepsLayout (h : WellNested context) :
    context.head?.any (·.keepsLayout) = true ↔ ∃ e ∈ context, e.name = "pre" := by
  cases h with
  | nil => simp
  | cons hopen hgrabs hlayout hrest => simp [hlayout]

theorem isOpenable (h : WellNested context) : ∀ e ∈ context, e.IsOpenable := by
  induction h with
  | nil => simp
  | cons hopen _ _ _ ih =>
    intro e he
    rcases List.mem_cons.mp he with rfl | he
    · exact hopen
    · exact ih e he

/-- No element ends the one around it. -/
theorem grabs_eq_false {parent : Element} (h : WellNested (inner ++ e :: parent :: outer)) :
    Flavour.html.grabs parent.name e.name = false := by
  cases h.suffix (List.suffix_append inner _) with
  | cons _ hgrabs _ _ => exact hgrabs parent rfl

/-- An element keeps its layout exactly if it is a `pre` or stands in one. -/
theorem keepsLayout_iff (h : WellNested (inner ++ e :: outer)) :
    e.keepsLayout = true ↔ e.name = "pre" ∨ ∃ o ∈ outer, o.name = "pre" := by
  cases h.suffix (List.suffix_append inner _) with
  | cons _ _ hlayout _ => exact hlayout

end WellNested

namespace Flavour

variable (f : Flavour) {context : List Element}

/-- An opening tag closes elements from the innermost one on. -/
theorem afterGrabs_suffix (next : String) (context : List Element) :
    f.afterGrabs next context <:+ context := by
  induction context with
  | nil => exact List.suffix_refl []
  | cons parent outer ih =>
    simp only [afterGrabs]
    split
    · exact ih.trans (List.suffix_cons parent outer)
    · exact List.suffix_refl _

/-- And what it leaves open it does not end. -/
theorem grabs_of_head?_afterGrabs (next : String) (context : List Element) :
    ∀ parent ∈ (f.afterGrabs next context).head?, f.grabs parent.name next = false := by
  induction context with
  | nil => simp [afterGrabs]
  | cons parent outer ih =>
    simp only [afterGrabs]
    split
    · exact ih
    · rename_i hgrabs
      simpa using hgrabs

theorem afterImplied_suffix (name : String) (context : List Element) :
    f.afterImplied name context <:+ context := by
  cases context with
  | nil => exact List.suffix_refl []
  | cons top outer =>
    simp only [afterImplied]
    split
    · exact List.suffix_cons top outer
    · exact List.suffix_refl _

/-- The element that an opening tag opens, and what is open around it. -/
def opened (name : String) (indent : Nat) (startsLine : Bool) (context : List Element) :
    List Element :=
  ⟨name, indent, startsLine, f.preservesLayout name ||
    (f.afterGrabs name context).head?.any (·.keepsLayout)⟩ :: f.afterGrabs name context

theorem context_finishOpening (selfClosed : Bool) (s : State) :
    (f.finishOpening selfClosed s).context =
      if selfClosed || f.isVoid (s.tagName.getD "") then
        f.afterGrabs (s.tagName.getD "") s.context
      else f.opened (s.tagName.getD "") s.lineIndent (s.tagColumn == s.lineIndent) s.context := by
  simp only [finishOpening, opened]
  split <;> rfl

/-- **The element of a tag is nested well** where it has a body. -/
theorem wellNested_opened {name : String} (hname : IsTagName name)
    (hbody : html.isVoid name = false) (indent : Nat) (startsLine : Bool)
    (h : WellNested context) : WellNested (html.opened name indent startsLine context) := by
  have hleft := h.suffix (html.afterGrabs_suffix name context)
  refine .cons ⟨hname, hbody⟩ (html.grabs_of_head?_afterGrabs name context) ?_ hleft
  rw [← hleft.any_keepsLayout]
  simp [preservesLayout]

/-- A lexeme where an attribute may stand closes elements, or it ends the
tag and opens one. -/
theorem context_stepAttribute (l : Lexeme) (s : State) :
    (f.stepAttribute l s).1.context <:+ s.context ∨
      l = .endTag ∧ f.isVoid (s.tagName.getD "") = false ∧
        (f.stepAttribute l s).1.context =
          f.opened (s.tagName.getD "") s.lineIndent (s.tagColumn == s.lineIndent) s.context := by
  cases l with
  | endTag =>
    simp only [stepAttribute, context_finishOpening, Bool.false_or]
    cases hbody : f.isVoid (s.tagName.getD "") with
    | true => exact .inl (f.afterGrabs_suffix _ _)
    | false => exact .inr ⟨trivial, rfl, rfl⟩
  | selfClose =>
    simp only [stepAttribute, context_finishOpening, Bool.true_or, if_true]
    exact .inl (f.afterGrabs_suffix _ _)
  | openTag | closeTag | equals | word | quoted => exact .inl (List.suffix_refl _)

theorem context_stepClose (l : Lexeme) (s : State) :
    (stepClose l s).1.context <:+ s.context := by
  unfold stepClose
  split
  · exact List.tail_suffix _
  · exact List.suffix_refl _

/-- **What a lexeme does to the open elements**: it closes some, or it ends
the opening tag of an element with a body and opens that. -/
theorem context_step (l : Lexeme) (c : Cursor) (s : State) :
    (f.step l c s).1.context <:+ s.context ∨
      l = .endTag ∧ s.stage.Named ∧ f.isVoid (s.tagName.getD "") = false ∧
        (f.step l c s).1.context =
          f.opened (s.tagName.getD "") s.lineIndent (s.tagColumn == s.lineIndent) s.context := by
  have hattribute := f.context_stepAttribute l s
  unfold step
  cases hstage : s.stage with
  | base =>
    left
    cases l <;> exact List.suffix_refl _
  | tagName =>
    left
    dsimp only
    split <;> exact List.suffix_refl _
  | closeName =>
    left
    dsimp only
    split
    · simp only [stepCloseName]
      split <;> exact f.afterImplied_suffix _ _
    · exact List.suffix_refl _
  | closing | closingError => exact .inl (context_stepClose l s)
  | attributes =>
    simpa [Stage.Named] using hattribute
  | afterAttribute =>
    dsimp only
    split
    · exact .inl (List.suffix_refl _)
    · simpa [Stage.Named] using hattribute
  | value =>
    dsimp only
    split
    · exact .inl (List.suffix_refl _)
    · split
      · exact .inl (List.suffix_refl _)
      · simpa [Stage.Named] using hattribute
  | afterValue =>
    dsimp only
    split
    · exact .inl (List.suffix_refl _)
    · simpa [Stage.Named] using hattribute

theorem opened_finishOpening (selfClosed : Bool) (s : State) :
    (f.finishOpening selfClosed s).opened =
      if selfClosed || f.isVoid (s.tagName.getD "") then s.opened else true := by
  simp only [finishOpening]
  split <;> rfl

/-- Nothing but the end of an opening tag, of an element with a body, is
reported to open one. -/
theorem of_opened_step (l : Lexeme) (c : Cursor) (hbefore : s.opened = false)
    (h : (f.step l c s).1.opened = true) :
    l = .endTag ∧ s.stage.Named ∧ f.isVoid (s.tagName.getD "") = false := by
  have hsame : (f.step l c s).1.opened ≠ s.opened := by simp [h, hbefore]
  by_cases hawaited : s.stage = .tagName
  · rcases f.step_of_awaited l c hawaited with ⟨-, hstep⟩ | ⟨-, hstep⟩
    · exact absurd (by rw [hstep]) hsame
    · exact absurd (by rw [hstep]) hsame
  by_cases hnamed : s.stage.Named
  · rcases f.step_of_named l c hnamed with ⟨hl, hstep⟩ | ⟨-, hstep⟩ | ⟨-, -, -, -, hopened⟩
    · refine ⟨hl, hnamed, ?_⟩
      rw [hstep, opened_finishOpening, hbefore] at hsame
      simpa using hsame
    · exact absurd (by rw [hstep, opened_finishOpening]; simp) hsame
    · exact absurd hopened hsame
  · exact absurd (f.step_of_unnamed l c hawaited hnamed).2.2 hsame

/-- Outside opening tags their names stay what they are. -/
theorem tagName_step_of_unnamed (l : Lexeme) (c : Cursor) (hawaited : s.stage ≠ .tagName)
    (hnamed : ¬ s.stage.Named) : (f.step l c s).1.tagName = s.tagName := by
  unfold step
  cases hstage : s.stage with
  | base => cases l <;> rfl
  | tagName => exact absurd hstage hawaited
  | closeName =>
    dsimp only
    split
    · simp only [stepCloseName]
      split <;> rfl
    · rfl
  | closing | closingError =>
    simp only [stepClose]
    split <;> rfl
  | attributes | afterAttribute | value | afterValue => simp [hstage, Stage.Named] at hnamed

end Flavour

/-! ## The lexical layer -/

section Pieces

theorem state_inEntity (c : Cursor) (s : State) : (inEntity c s).state = s := by
  simp only [inEntity]
  split
  · rfl
  · split <;> rfl

theorem context_inDeclaration (c : Cursor) (s : State) :
    (inDeclaration c s).state.context = s.context := by
  unfold inDeclaration
  split
  · split <;> rfl
  · split
    · rfl
    · split <;> rfl

theorem context_inDelimiter (c : Cursor) (s : State) :
    (inDelimiter c s).state.context = s.context := by
  unfold inDelimiter
  split
  · exact context_inDeclaration _ s
  · split
    · rfl
    · split <;> rfl

theorem context_inText (c : Cursor) (s : State) : (inText c s).state.context = s.context := by
  unfold inText
  split
  · rfl
  · exact context_inDelimiter _ s
  · rw [state_inEntity]
  · rfl

theorem context_inTag (c : Cursor) (s : State) : (inTag c s).state.context = s.context := by
  unfold inTag
  split
  · rfl
  · repeat' split
    all_goals rfl

/-- Reading a piece closes and opens nothing. -/
theorem context_readPiece (c : Cursor) (s : State) :
    (readPiece c s).state.context = s.context := by
  unfold readPiece
  split
  · exact context_inText c s
  · exact context_inTag c s
  · rfl
  · rfl
  · rfl

end Pieces

/-! ## Calls -/

namespace Setup

variable (m : Setup)

/-- **What a call does to the open elements**: it closes some, or it reads
the end of the opening tag of an element with a body and opens that. -/
theorem context_token (hc : c.token = []) (hrest : c.rest ≠ []) :
    (m.token c s).state.context <:+ s.context ∨
      s.stage.Named ∧ m.flavour.isVoid (s.tagName.getD "") = false ∧
        ∃ indent startsLine, (m.token c s).state.context =
          m.flavour.opened (s.tagName.getD "") indent startsLine s.context := by
  have hcontext : (readPiece c (enter c s)).state.context = s.context := context_readPiece _ _
  cases hblanks : c.readBlanks? with
  | some d =>
    simp only [token, hblanks]
    exact .inl (List.suffix_refl _)
  | none =>
    cases fits_readPiece (s := enter c s) hc hrest with
    | @lexeme l hl _ _ hsame =>
      simp only [token, hblanks, hl]
      rcases m.flavour.context_step l (readPiece c (enter c s)).cursor
        (readPiece c (enter c s)).state with hclosed | ⟨-, hnamed, hbody, hopened⟩
      · rw [hcontext] at hclosed
        exact .inl hclosed
      · rw [hsame.stage] at hnamed
        rw [hsame.tagName] at hbody hopened
        rw [hcontext] at hopened
        exact .inr ⟨hnamed, hbody, _, _, hopened⟩
    | givesUp hl =>
      simp only [token, hblanks, hl, hcontext]
      exact .inl (List.suffix_refl _)
    | aside _ haside =>
      simp only [token, hblanks, haside.lexeme, hcontext]
      exact .inl (List.suffix_refl _)

end Setup

/-- **What every call of the html tokenizer keeps.** -/
structure State.WellFormed (s : State) : Prop where
  /-- The tag being read has its name while its attributes are read, and
  only then. -/
  named_iff : s.stage.Named ↔ s.tagName.isSome
  inTag : s.stage.Named → s.zone.InTag
  tagName : ∀ name, s.tagName = some name → IsTagName name
  context : WellNested s.context
  opened : s.opened = true → s.context ≠ [] ∧ s.zone = .text ∧ s.stage = .base

namespace State.WellFormed

theorem initial (baseIndent : Nat) : (State.initial baseIndent).WellFormed where
  named_iff := by simp [State.initial, Stage.Named]
  inTag h := by simp [State.initial, Stage.Named] at h
  tagName name h := by simp [State.initial] at h
  context := .nil
  opened h := by simp [State.initial] at h

theorem settled (h : s.WellFormed) : s.Settled := by
  intro hnamed
  obtain ⟨name, hname⟩ := Option.isSome_iff_exists.mp (h.named_iff.mp hnamed)
  exact ⟨name, h.inTag hnamed, hnamed, hname⟩

theorem tagName_eq_none (h : s.WellFormed) (hnamed : ¬ s.stage.Named) : s.tagName = none := by
  rwa [h.named_iff, Option.not_isSome_iff_eq_none] at hnamed

end State.WellFormed

namespace Setup

variable (m : Setup)

/-- A `<` inside a tag gives the tag up, and the name with it. -/
theorem tagName_token_of_givesUp (h : GivesUp c s) : (m.token c s).state.tagName = none := by
  obtain ⟨hzone, hpeek⟩ := h
  have hlt : isBlank '<' = false := by decide
  have hblanks : c.readBlanks? = none := by
    simp [readBlanks?, readWhile?, readIf?, hpeek, hlt]
  have hpiece : readPiece c (enter c s) = ⟨some .error, none, c.read 1,
      { enter c s with zone := .text, stage := .base, tagName := none, tagColumn := 0 }⟩ := by
    simp [readPiece, enter, hzone, inTag, next?, hpeek]
  simp only [token, hblanks, hpiece]

/-- After a call the tag has its name only at the stages of attributes. -/
theorem tagName_token_of_unnamed (hc : c.token = []) (hrest : c.rest ≠ []) (h : s.WellFormed)
    (hafter : ¬ (m.token c s).state.stage.Named) : (m.token c s).state.tagName = none := by
  cases m.tagMove_token (s := s) hc hrest with
  | @lexeme l p hl _ _ hstage hname _ hstate =>
    rw [hstate] at hafter ⊢
    by_cases hnamed : p.stage.Named
    · rcases m.flavour.step_of_named l (m.token c s).cursor hnamed with
        ⟨-, hstep⟩ | ⟨-, hstep⟩ | ⟨-, -, hinside, -⟩
      · rw [hstep, Flavour.tagName_finishOpening]
      · rw [hstep, Flavour.tagName_finishOpening]
      · exact absurd hinside hafter
    have hnone : p.tagName = none := by
      rw [hname]
      exact h.tagName_eq_none (hstage ▸ hnamed)
    by_cases hawaited : p.stage = .tagName
    · rcases m.flavour.step_of_awaited l (m.token c s).cursor hawaited with
        ⟨-, hstep⟩ | ⟨-, hstep⟩
      · simp [hstep, Stage.Named] at hafter
      · rw [hstep, hnone]
    · rw [m.flavour.tagName_step_of_unnamed l _ hawaited hnamed, hnone]
  | givesUp _ hgives => exact m.tagName_token_of_givesUp hgives
  | aside _ _ _ hstage hname =>
    rw [hname]
    exact h.tagName_eq_none (hstage ▸ hafter)

/-- **A call that reports an opened element** has just opened it. -/
theorem of_opened_token (hc : c.token = []) (hrest : c.rest ≠ [])
    (h : (m.token c s).state.opened = true) :
    (m.token c s).state.context ≠ [] ∧ (m.token c s).state.zone = .text ∧
      (m.token c s).state.stage = .base := by
  have hopens : ∃ e, (m.token c s).state.openedElement = some e := by
    cases m.tagMove_token (s := s) hc hrest with
    | @lexeme l p hl _ _ hstage hname hbefore hstate =>
      rw [hstate] at h
      obtain ⟨rfl, hnamed, hbody⟩ := m.flavour.of_opened_step l _ hbefore h
      refine ⟨_, (m.openedElement_token_iff hc hrest).mpr ⟨hl, hstage ▸ hnamed, rfl, ?_⟩⟩
      rwa [← hname]
    | givesUp _ _ _ _ hopened => simp [hopened] at h
    | aside _ _ _ _ _ hopened => simp [hopened] at h
  obtain ⟨e, he⟩ := hopens
  obtain ⟨hparked, -⟩ := m.parkedIn_token hc he
  refine ⟨?_, hparked.zone, hparked.stage⟩
  intro hnil
  simpa [State.openElement, hnil] using hparked.innermost

/-- **A call keeps states well formed.** -/
theorem wellFormed_token (hflavour : m.flavour = .html) (hc : c.token = []) (h : s.WellFormed) :
    (m.token c s).state.WellFormed := by
  by_cases hrest : c.rest = []
  · obtain ⟨stage, hstate, hnamed⟩ := m.token_atEnd (s := s) hrest
    rw [hstate]
    exact ⟨hnamed.trans h.named_iff, fun hstage => h.inTag (hnamed.mp hstage), h.tagName,
      h.context, fun hopened => by simp [enter] at hopened⟩
  · have hsettled := m.settled_token hc hrest h.settled
    have hnone := m.tagName_token_of_unnamed hc hrest h
    refine ⟨⟨?_, ?_⟩, ?_, ?_, ?_, ?_⟩
    · intro hnamed
      obtain ⟨name, hin⟩ := hsettled hnamed
      simp [hin.tagName]
    · intro hsome
      by_contra hnamed
      simp [hnone hnamed] at hsome
    · intro hnamed
      obtain ⟨name, hin⟩ := hsettled hnamed
      exact hin.zone
    · intro name hname
      have hnamed : (m.token c s).state.stage.Named := by
        by_contra hnamed
        simp [hnone hnamed] at hname
      obtain ⟨name', hin⟩ := hsettled hnamed
      rcases (m.inNamedTag_token_iff hc hrest h.settled).mp hin with
        ⟨hword, -, rfl⟩ | ⟨hbefore, -⟩
      · obtain rfl := Option.some.inj (hin.tagName.symm.trans hname)
        rw [hflavour]
        exact m.isTagName_of_word hc hrest hword
      · obtain rfl := Option.some.inj (hin.tagName.symm.trans hname)
        exact h.tagName _ hbefore.tagName
    · rcases m.context_token (s := s) hc hrest with hclosed | ⟨hnamed, hbody, _, _, hopened⟩
      · exact h.context.suffix hclosed
      · obtain ⟨name, hname⟩ := Option.isSome_iff_exists.mp (h.named_iff.mp hnamed)
        rw [hname, hflavour] at hbody hopened
        rw [hopened]
        exact Flavour.wellNested_opened (h.tagName name hname) hbody _ _ h.context
    · exact m.of_opened_token hc hrest

end Setup

/-- **Every state that calls lead to is well formed.** -/
theorem wellFormed_of_reachable (o : Options) (h : (html o).Reachable s) : s.WellFormed := by
  induction h with
  | start baseIndent => exact .initial baseIndent
  | call _ hc ih => exact (Setup.ofOptions .html o).wellFormed_token rfl hc ih

/-- **The states of the html tokenizer.** In every state that calls lead to,
on whatever lines and also at their ends: the stage is one of attributes
exactly where the tag being read has its name, and then the zone is within a
tag; every open element has a name that a tag can have, and a body; no open
element ends the one around it; an open element keeps its layout exactly if
it is a `pre` or stands in one; and where an element is reported as just
opened there is one, and the state is in text and outside tags. -/
theorem html_state_wellFormed (o : Options) (h : (html o).Reachable s) :
    (s.stage.Named ↔ s.tagName.isSome) ∧
      (s.stage.Named → s.zone.InTag) ∧
      (∀ e ∈ s.context, e.IsOpenable) ∧
      (∀ inner e parent outer, s.context = inner ++ e :: parent :: outer →
        Flavour.html.grabs parent.name e.name = false) ∧
      (∀ inner e outer, s.context = inner ++ e :: outer →
        (e.keepsLayout = true ↔ e.name = "pre" ∨ ∃ o ∈ outer, o.name = "pre")) ∧
      (s.opened = true → s.context ≠ [] ∧ s.zone = .text ∧ s.stage = .base) := by
  have hs := wellFormed_of_reachable o h
  refine ⟨hs.named_iff, hs.inTag, hs.context.isOpenable, ?_, ?_, hs.opened⟩
  · intro inner e parent outer hcontext
    exact (hcontext ▸ hs.context).grabs_eq_false
  · intro inner e outer hcontext
    exact (hcontext ▸ hs.context).keepsLayout_iff

/-- A state in the middle of a torn value, inside a list item that ended
another one and that stands in a `pre`. -/
theorem html_state_wellFormed_in_value :
    let s := ((html {}).readLines 0 ["<PRE><ul><li>a<LI>".toList, "<b c='d".toList]
      ((html {}).start 0)).state
    (html {}).Reachable s ∧ s.zone = .value '\x27' ∧ s.stage.Named ∧ s.tagName = some "b" ∧
      s.context.map (·.name) = ["li", "ul", "pre"] ∧
      (∀ e ∈ s.context, e.IsOpenable) ∧
      (∀ inner e outer, s.context = inner ++ e :: outer →
        (e.keepsLayout = true ↔ e.name = "pre" ∨ ∃ o ∈ outer, o.name = "pre")) := by
  intro s
  have hreach : (html {}).Reachable s := .readLines (.start 0) 0 _
  have hname : s.tagName = some "b" := by decide +kernel
  obtain ⟨hnamed, -, hopenable, -, hlayout, -⟩ := html_state_wellFormed {} hreach
  refine ⟨hreach, by decide +kernel, ?_, hname, by decide +kernel, hopenable, hlayout⟩
  rw [hnamed, hname]
  rfl

end Markup

end MixedMarkup
