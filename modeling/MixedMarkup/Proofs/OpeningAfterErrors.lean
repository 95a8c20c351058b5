import MixedMarkup.Proofs.ImpliedEnds
import MixedMarkup.Proofs.TagTexts
/-!
# Markup — opening tags after errors

Where the html tokenizer is in text it is between tags, but it need not be
at the base stage: the end of a tag without a name, and a `/>` in a closing
tag, lead back to text and to another stage
(`Setup.stage_ne_base_iff_of_leaving`). Four stages are met there
(`betweenTags_of_reachable`), and the next opening tag is read at each of
them in its own way (`opening_tag_between_tags`). After a nameless opening
tag only its delimiter is an error. After a broken closing tag the name is an
error as well, the tag opens nothing, and its `>` closes the innermost
element. The base stage comes back in each case, so that an error reaches no
further than to the end of the tag after it.
-/

namespace MixedMarkup

open Cursor Text

namespace Markup

variable {c d : Cursor} {s : State} {stage : Stage} {context : List Element}
variable {text name after : List Char}

/-! ## The stages of text between tags -/

/-- A stage that the end of a tag may lead to. -/
def Stage.BetweenTags : Stage → Prop
  | .base | .tagName | .closing | .closingError => True
  | .closeName | .attributes | .afterAttribute | .value | .afterValue => False

/-- An opening tag awaits no name yet, or has awaited one since a nameless
one before it. -/
def Stage.Opens (stage : Stage) : Prop := stage = .base ∨ stage = .tagName

instance : DecidablePred Stage.Opens := fun stage =>
  inferInstanceAs (Decidable (stage = .base ∨ stage = .tagName))

/-- The other stages of text are those of a closing tag that has not come to
its end. -/
theorem Stage.BetweenTags.closing_of_not_opens (h : stage.BetweenTags) (hopens : ¬ stage.Opens) :
    stage = .closing ∨ stage = .closingError := by
  cases stage with
  | base => exact absurd (.inl rfl) hopens
  | tagName => exact absurd (.inr rfl) hopens
  | closing => exact .inl rfl
  | closingError => exact .inr rfl
  | closeName | attributes | afterAttribute | value | afterValue => exact h.elim

theorem Stage.BetweenTags.not_named (h : stage.BetweenTags) : ¬ stage.Named := by
  cases stage <;> simp_all [BetweenTags, Named]

/-- The stage after the end of a tag. -/
def Stage.afterEnd (l : Lexeme) : Stage → Stage
  | .tagName => .tagName
  | .closeName => .closingError
  | .closing | .closingError => if l = .endTag then .base else .closing
  | .base | .attributes | .afterAttribute | .value | .afterValue => .base

/-- **The end of a tag** leads there. -/
theorem Flavour.stage_step_of_end (f : Flavour) {l : Lexeme} (hl : l = .endTag ∨ l = .selfClose)
    (c : Cursor) (s : State) : (f.step l c s).1.stage = s.stage.afterEnd l := by
  by_cases hnamed : s.stage.Named
  · have hbase : s.stage.afterEnd l = .base := by
      cases hstage : s.stage <;> simp [hstage, Stage.Named, Stage.afterEnd] at hnamed ⊢
    rw [hbase]
    rcases f.step_of_named l c hnamed with ⟨-, hstep⟩ | ⟨-, hstep⟩ | ⟨hend, hself, -⟩
    · rw [hstep, stage_finishOpening]
    · rw [hstep, stage_finishOpening]
    · exact (hl.elim hend hself).elim
  · unfold step
    cases hstage : s.stage with
    | base | tagName | closeName | closing | closingError =>
      rcases hl with rfl | rfl <;> simp [hstage, stepClose, Stage.afterEnd]
    | attributes | afterAttribute | value | afterValue =>
      exact absurd (by simp [hstage, Stage.Named]) hnamed

/-- That is a stage of text. -/
theorem Stage.betweenTags_afterEnd (l : Lexeme) (stage : Stage) :
    (stage.afterEnd l).BetweenTags := by
  cases stage with
  | closing | closingError => by_cases hl : l = .endTag <;> simp [afterEnd, hl, BetweenTags]
  | base | tagName | closeName | attributes | afterAttribute | value | afterValue => trivial

/-- But not the base stage where the tag has no name yet, nor after a `/>`
in a closing tag. -/
theorem Stage.afterEnd_ne_base_iff {l : Lexeme} (hl : l = .endTag ∨ l = .selfClose)
    (stage : Stage) :
    stage.afterEnd l ≠ .base ↔ (stage = .tagName ∨ stage = .closeName) ∨
      (stage = .closing ∨ stage = .closingError) ∧ l = .selfClose := by
  rcases hl with rfl | rfl <;> cases stage <;> simp [afterEnd]

/-- The state is within a tag, or at a stage of text. -/
def State.Placed (s : State) : Prop := s.zone.InTag ∨ s.stage.BetweenTags

namespace Setup

variable (m : Setup)

/-- **A call keeps that.** -/
theorem placed_token (hc : c.token = []) (h : s.Placed) : (m.token c s).state.Placed := by
  by_cases hrest : c.rest = []
  · rcases m.token_atEnd_cases (s := s) hrest with hstate | ⟨⟨quote, hzone⟩, stage, hstate, -⟩
    · rw [hstate]
      exact h
    · rw [hstate]
      exact .inl (by simp [enter, hzone, Zone.InTag])
  cases m.tagMove_token (s := s) hc hrest with
  | @lexeme l p _ _ hjoins _ _ _ hstate =>
    by_cases hl : l = .endTag ∨ l = .selfClose
    · right
      rw [hstate, m.flavour.stage_step_of_end hl]
      exact Stage.betweenTags_afterEnd l _
    · rw [not_or] at hl
      exact .inl (hjoins.inTag_after hl.1 hl.2)
  | givesUp _ _ _ hstage =>
    right
    rw [hstage]
    trivial
  | aside _ _ hzone hstage =>
    rcases h with hin | hbetween
    · exact .inl (hzone.mpr hin)
    · exact .inr (hstage ▸ hbetween)

end Setup

/-- **The stages of text** that calls lead to. -/
theorem betweenTags_of_reachable (o : Options) (h : (html o).Reachable s) (hzone : s.zone = .text) :
    s.stage.BetweenTags := by
  have hplaced : s.Placed := by
    clear hzone
    induction h with
    | start baseIndent => exact .inr trivial
    | call _ hc ih => exact (Setup.ofOptions .html o).placed_token hc ih
  exact hplaced.resolve_left (by simp [hzone, Zone.InTag])

/-- **Where an error is carried over** into the text after a tag: at the end
of a tag without a name, and at a `/>` that ends a closing tag. A `<` gives
the tag up and does not carry it over. -/
theorem Setup.stage_ne_base_iff_of_leaving (m : Setup) (hc : c.token = []) (hrest : c.rest ≠ [])
    (hzone : s.zone.InTag) (hleft : ¬ (m.token c s).state.zone.InTag) :
    (m.token c s).state.stage ≠ .base ↔
      (s.stage = .tagName ∨ s.stage = .closeName) ∧ ¬ GivesUp c s ∨
        (s.stage = .closing ∨ s.stage = .closingError) ∧ lexemeAt c s = some .selfClose := by
  cases m.tagMove_token (s := s) hc hrest with
  | @lexeme l p hlexeme hgives hjoins hstage _ _ hstate =>
    have hl : l = .endTag ∨ l = .selfClose := by
      by_contra hl
      rw [not_or] at hl
      exact hleft (hjoins.inTag_after hl.1 hl.2)
    rw [hstate, m.flavour.stage_step_of_end hl, Stage.afterEnd_ne_base_iff hl, hstage, hlexeme]
    simp [hgives]
  | givesUp hlexeme hgives _ hstage => simp [hstage, hgives, hlexeme]
  | aside _ _ hin => exact absurd (hin.mpr hzone) hleft

/-! ## An opening tag -/

/-- A name is awaited by a state at a stage that opens a tag, and its
delimiter is an error if one was awaited before. -/
theorem Flavour.step_openTag (f : Flavour) (hopens : s.stage.Opens) :
    ∃ column, f.step .openTag c s = ({ s with stage := .tagName, tagColumn := column },
      if s.stage = .base then none else some .error) := by
  rcases hopens with hstage | hstage
  · exact ⟨c.column, by simp [step, hstage]⟩
  · refine ⟨s.tagColumn, ?_⟩
    simp only [step, hstage, reduceCtorEq, if_false]
    rw [← hstage]

/-- After the name of a closing tag, all but a `>` is an error. -/
theorem Flavour.step_of_closing (f : Flavour) {l : Lexeme} (hl : l ≠ .endTag)
    (hstage : s.stage = .closing ∨ s.stage = .closingError) :
    f.step l c s = ({ s with stage := .closing }, some .error) := by
  rcases hstage with hstage | hstage <;> simp [step, hstage, stepClose, hl]

/-- No mark of another construct comes before the name of a tag. -/
theorem head?_of_tagText (hne : name ≠ []) (hname : ∀ x ∈ name, isWordChar x = true ∧ x ≠ '/')
    (hplain : ∀ x ∈ name.head?, x ≠ '!' ∧ x ≠ '?') :
    ∀ x ∈ (name ++ after).head?, x ≠ '!' ∧ x ≠ '?' ∧ x ≠ '/' := by
  intro x hx
  obtain ⟨y, name, rfl⟩ := List.exists_cons_of_ne_nil hne
  obtain rfl : y = x := by simpa using hx
  exact ⟨(hplain y rfl).1, (hplain y rfl).2, (hname y (by simp)).2⟩

theorem endsWord_end (after : List Char) : EndsWord ('>' :: after) :=
  endsWord_of_head? (by simp; decide)

namespace Setup

variable (m : Setup)

/-- The delimiter of an opening tag that is to have a name. -/
theorem passes_openDelimiter (hs : s.Stands .text stage context) (hopens : stage.Opens)
    (hrest : c.rest = '<' :: text) (htext : ∀ x ∈ text.head?, x ≠ '!' ∧ x ≠ '?' ∧ x ≠ '/') :
    Passes c ['<'] (some (if stage = .base then .tag else .error)) .tag .tagName context
      (m.token c s) := by
  obtain ⟨hblanks, htook, hpiece⟩ := readPiece_of_openTag (hs.enter c).zone hrest htext
  obtain ⟨column, hstep⟩ := m.flavour.step_openTag (c := c.read 1)
    (s := { enter c s with zone := .tag }) (by rwa [← hs.stage] at hopens)
  rw [m.token_of_lexeme hblanks hpiece, hstep]
  refine ⟨htook, ?_, rfl, rfl, rfl, hs.tagName, hs.context⟩
  have hstage : (enter c s).stage = stage := hs.stage
  by_cases hbase : stage = .base <;> simp [hstage, hbase]

/-- A lexeme of another tag where a closing tag has not come to its end. -/
theorem passes_lost {style : Option Style} {l : Lexeme} {p : State} (hl : l ≠ .endTag)
    (hstage : stage = .closing ∨ stage = .closingError) (hblanks : c.readBlanks? = none)
    (htook : c.Took text d) (hpiece : readPiece c (enter c s) = ⟨style, some l, d, p⟩)
    (hp : p.Stands .tag stage context) (hopened : p.opened = false) :
    Passes c text (some .error) .tag .closing context (m.token c s) := by
  rw [m.token_of_lexeme hblanks hpiece,
    m.flavour.step_of_closing hl (by rwa [← hp.stage] at hstage)]
  exact ⟨htook, rfl, hopened, hp.zone, rfl, hp.tagName, hp.context⟩

/-- The call that reads a lexeme, as a run of its own. -/
theorem yields_of_lexeme {style : Option Style} {l : Lexeme} {p : State} (hne : text ≠ [])
    (hblanks : c.beginToken.readBlanks? = none) (htook : c.beginToken.Took text d)
    (hpiece : readPiece c.beginToken (enter c.beginToken s) = ⟨style, some l, d, p⟩)
    (hrest : c.rest = text ++ after) :
    m.tokenizer.Yields (fun _ => True) c s [(text, (m.flavour.step l d p).2 <|> style)] d
      (m.flavour.step l d p).1 ∧ d.rest = after := by
  have htoken : m.tokenizer.token c.beginToken s = _ := m.token_of_lexeme hblanks hpiece
  have hyields : m.tokenizer.Yields (fun _ => True) c s _ _ _ :=
    .call hne (by rwa [htoken]) trivial
  rw [htoken] at hyields
  exact ⟨hyields, htook.rest_eq hrest⟩

/-- The name that is awaited. The tag began where it did. -/
theorem yields_tagWord (hs : s.Stands .tag .tagName context) (hne : name ≠ [])
    (hname : ∀ x ∈ name, isWordChar x = true ∧ x ≠ '/') (hrest : c.rest = name ++ after)
    (hafter : EndsWord after) :
    ∃ d s', m.tokenizer.Yields (fun _ => True) c s [(name, some .tag)] d s' ∧ d.rest = after ∧
      s'.InsideTag .tag .attributes (m.flavour.elementName name) context ∧
      s'.tagColumn = s.tagColumn := by
  obtain ⟨d, hblanks, htook, htoken, hpiece⟩ := readPiece_of_word (c := c.beginToken)
    (hs.enter c.beginToken).zone rfl hrest hne hname hafter
  obtain ⟨hyields, hd⟩ := m.yields_of_lexeme hne hblanks htook hpiece hrest
  have hstep : m.flavour.step .word d (enter c.beginToken s) =
      ({ enter c.beginToken s with
          stage := .attributes, tagName := some (m.flavour.elementName name) }, some .tag) := by
    simp only [Flavour.step, (hs.enter c.beginToken).stage, htoken, if_true]
  rw [hstep] at hyields
  exact ⟨d, _, hyields, hd, ⟨⟨hs.zone, rfl, hs.context⟩, rfl⟩, rfl⟩

/-- The end of the tag opens the element, since it has a body. -/
theorem yields_tagEnd {element : String} (hs : s.InsideTag .tag .attributes element context)
    (hbody : m.flavour.isVoid element = false) (hrest : c.rest = '>' :: after) :
    ∃ d s' indent startsLine,
      m.tokenizer.Yields (fun _ => True) c s [(['>'], some .tag)] d s' ∧ d.rest = after ∧
        s'.Stands .text .base (m.flavour.opened element indent startsLine context) ∧
        s'.openedElement = some element := by
  have hs' := lasts_insideTag c.beginToken s hs
  have hpeek : c.beginToken.peek? = some '>' := by simp [peek?, hrest]
  obtain ⟨hyields, hd⟩ := m.yields_of_lexeme (by simp) (readBlanks?_of_endTag hpeek)
    (took_read_one hpeek) (readPiece_of_endTag hs'.zone hpeek) hrest
  have hstep : m.flavour.step .endTag (c.beginToken.read 1)
        { enter c.beginToken s with zone := .text } =
      (m.flavour.finishOpening false { enter c.beginToken s with zone := .text }, none) := by
    simp only [Flavour.step, hs'.stage, Flavour.stepAttribute]
  rw [hstep] at hyields
  refine ⟨_, _, (enter c.beginToken s).lineIndent,
    (enter c.beginToken s).tagColumn == (enter c.beginToken s).lineIndent, hyields, hd,
    ⟨by simp, by simp, by simp, ?_⟩, ?_⟩
  · rw [Flavour.context_finishOpening]
    simp [hs'.tagName, hs'.context, hbody]
  · rw [Flavour.openedElement_finishOpening _ _ rfl]
    simp [hs'.tagName, hbody]

/-- **The name is read and the element opened** at a stage that opens a tag. -/
theorem yields_opening (hs : s.Stands .text stage context) (hopens : stage.Opens)
    (hne : name ≠ []) (hname : ∀ x ∈ name, isWordChar x = true ∧ x ≠ '/')
    (hplain : ∀ x ∈ name.head?, x ≠ '!' ∧ x ≠ '?')
    (hbody : m.flavour.isVoid (m.flavour.elementName name) = false)
    (hrest : c.rest = '<' :: (name ++ '>' :: after)) :
    ∃ d s' indent startsLine, m.tokenizer.Yields (fun _ => True) c s
        [(['<'], some (if stage = .base then .tag else .error)), (name, some .tag),
          (['>'], some .tag)] d s' ∧
      d.rest = after ∧
      s'.Stands .text .base
        (m.flavour.opened (m.flavour.elementName name) indent startsLine context) ∧
      s'.openedElement = some (m.flavour.elementName name) := by
  have hafter : ∀ x ∈ (name ++ '>' :: after).head?, x ≠ '!' ∧ x ≠ '?' ∧ x ≠ '/' :=
    head?_of_tagText hne hname hplain
  obtain ⟨c₁, s₁, hdelimiter, hc₁, hs₁, -⟩ :=
    (m.passes_openDelimiter (c := c.beginToken) hs hopens hrest hafter).yields (by simp) hrest
  obtain ⟨c₂, s₂, hword, hc₂, hs₂, -⟩ := m.yields_tagWord hs₁ hne hname hc₁ (endsWord_end after)
  obtain ⟨d, s', indent, startsLine, hend, hd, hs', hopened⟩ := m.yields_tagEnd hs₂ hbody hc₂
  have hdelimiter' := hdelimiter.mono (q := fun _ => True) fun _ _ => trivial
  exact ⟨d, s', indent, startsLine, hdelimiter'.trans (hword.trans hend), hd, hs', hopened⟩

/-- **The name is an error and nothing is opened** where a closing tag has
not come to its end. The `>` is the one that was missing, and closes the
innermost element. -/
theorem yields_lost (hs : s.Stands .text stage context)
    (hstage : stage = .closing ∨ stage = .closingError) (hne : name ≠ [])
    (hname : ∀ x ∈ name, isWordChar x = true ∧ x ≠ '/')
    (hplain : ∀ x ∈ name.head?, x ≠ '!' ∧ x ≠ '?')
    (hrest : c.rest = '<' :: (name ++ '>' :: after)) :
    ∃ d s', m.tokenizer.Yields (·.opened = false) c s
        [(['<'], some .error), (name, some .error), (['>'], some .tag)] d s' ∧
      d.rest = after ∧ s'.Stands .text .base context.tail ∧ s'.opened = false := by
  have hafter : ∀ x ∈ (name ++ '>' :: after).head?, x ≠ '!' ∧ x ≠ '?' ∧ x ≠ '/' :=
    head?_of_tagText hne hname hplain
  obtain ⟨hblanks, htook, hpiece⟩ :=
    readPiece_of_openTag (c := c.beginToken) (hs.enter c.beginToken).zone hrest hafter
  obtain ⟨c₁, s₁, hdelimiter, hc₁, hs₁, -⟩ :=
    (m.passes_lost (by simp) hstage hblanks htook hpiece ⟨rfl, hs.stage, hs.tagName, hs.context⟩
      rfl).yields (by simp) hrest
  obtain ⟨e, hblanks, htook, -, hpiece⟩ := readPiece_of_word (c := c₁.beginToken)
    (hs₁.enter c₁.beginToken).zone rfl hc₁ hne hname (endsWord_end after)
  obtain ⟨c₂, s₂, hword, hc₂, hs₂, -⟩ :=
    (m.passes_lost (by simp) (.inl rfl) hblanks htook hpiece (hs₁.enter _) rfl).yields hne hc₁
  have hclosing : s₂.Stands .tag (closingStage true) context := hs₂
  obtain ⟨d, s', hend, hd, hs', hopened⟩ :=
    (m.passes_closeEnd (c := c₂.beginToken) hclosing hc₂).yields (by simp) hc₂
  exact ⟨d, s', hdelimiter.trans (hword.trans hend), hd, hs', hopened⟩

end Setup

/-- **An opening tag between tags.** Take a state that calls lead to, in text,
and an opening tag with a name of ASCII letters and digits that is not that
of an element without a body. The tokens of the tag are its `<`, its name and
its `>`, and after them the state is in text at the base stage. All three are
a tag's if the stage was the base one. The `<` is an error at the other
stages, and the name is one as well where a closing tag has not come to its
end. There the tag opens nothing and the innermost element is closed; at the
other stages the tag's element is the innermost one and reported as opened. -/
theorem opening_tag_between_tags (o : Options) (h : (html o).Reachable s) (hzone : s.zone = .text)
    (hne : name ≠ []) (hname : ∀ x ∈ name, x.isAlphanum = true)
    (hbody : Flavour.html.isVoid (Flavour.html.elementName name) = false)
    (hrest : c.rest = '<' :: (name ++ '>' :: after)) :
    s.stage.BetweenTags ∧ ∃ d s', (html o).Yields (fun _ => True) c s
        [(['<'], some (if s.stage = .base then .tag else .error)),
          (name, some (if s.stage.Opens then .tag else .error)), (['>'], some .tag)] d s' ∧
      d.rest = after ∧ s'.zone = .text ∧ s'.stage = .base ∧
      if s.stage.Opens then
        (html o).openElement s' = some (Flavour.html.elementName name) ∧
          (html o).openedElement s' = some (Flavour.html.elementName name) ∧
          s'.context.tail =
            Flavour.html.afterGrabs (Flavour.html.elementName name) s.context
      else (html o).openedElement s' = none ∧ s'.context = s.context.tail := by
  have hbetween := betweenTags_of_reachable o h hzone
  have hs : s.Stands .text s.stage s.context :=
    ⟨hzone, rfl, (wellFormed_of_reachable o h).tagName_eq_none hbetween.not_named, rfl⟩
  have hchars : ∀ x ∈ name, isWordChar x = true ∧ x ≠ '/' := fun x hx =>
    ⟨(isWordChar_of_isAlphanum (hname x hx)).1, (isWordChar_of_isAlphanum (hname x hx)).2.1⟩
  have hplain : ∀ x ∈ name.head?, x ≠ '!' ∧ x ≠ '?' := by
    intro x hx
    have halphanum := hname x (List.mem_of_mem_head? hx)
    constructor
    · rintro rfl
      exact absurd halphanum (by decide)
    · rintro rfl
      exact absurd halphanum (by decide)
  refine ⟨hbetween, ?_⟩
  by_cases hopens : s.stage.Opens
  · obtain ⟨d, s', _, _, hyields, hd, hs', hopened⟩ :=
      (Setup.ofOptions .html o).yields_opening hs hopens hne hchars hplain hbody hrest
    simp only [hopens, if_true]
    refine ⟨d, s', hyields, hd, hs'.zone, hs'.stage, ?_, hopened, ?_⟩
    · exact (State.openedElement_eq_some hopened).2
    · rw [hs'.context]
      rfl
  · obtain ⟨d, s', hyields, hd, hs', hopened⟩ := (Setup.ofOptions .html o).yields_lost hs
      (hbetween.closing_of_not_opens hopens) hne hchars hplain hrest
    have hbase : s.stage ≠ .base := fun hbase => hopens (.inl hbase)
    simp only [hopens, hbase, if_false]
    exact ⟨d, s', hyields.mono fun _ _ => trivial, hd, hs'.zone, hs'.stage,
      State.openedElement_of_not_opened hopened, hs'.context⟩

/-- After a nameless tag the element is opened all the same, in lower case. -/
theorem opening_tag_after_nameless_one :
    (html {}).Reachable (stateAfter ["<ul></ul><>"]) ∧
      ∃ d s', (html {}).Yields (fun _ => True) (.ofLine "<DIV>x".toList)
          (stateAfter ["<ul></ul><>"])
          [("<".toList, some .error), ("DIV".toList, some .tag), (">".toList, some .tag)] d s' ∧
        d.rest = "x".toList ∧ s'.stage = .base ∧ (html {}).openedElement s' = some "div" := by
  have hreach : (html {}).Reachable (stateAfter ["<ul></ul><>"]) := .readLines (.start 0) 0 _
  have hstage : (stateAfter ["<ul></ul><>"]).stage = .tagName := by decide +kernel
  obtain ⟨-, d, s', hyields, hd, -, hbase, hopened⟩ :=
    opening_tag_between_tags {} (c := .ofLine "<DIV>x".toList) hreach (by decide +kernel)
      (by decide : "DIV".toList ≠ []) (by decide) (by decide) rfl
  rw [hstage] at hyields hopened
  exact ⟨hreach, d, s', hyields, hd, hbase, hopened.2.1⟩

/-- **After a nameless closing tag** the `<` and the name of an opening tag
are errors, and nothing is opened. -/
theorem opening_tag_lost_after_closing :
    (html {}).Reachable (stateAfter ["</>"]) ∧ (stateAfter ["</>"]).zone = .text ∧
      ((html {}).readLine 1 "<div>".toList (stateAfter ["</>"])).spans.map Span.content =
        [("<", some .error), ("div", some .error), (">", some .tag)] ∧
      (html {}).openedElement
        ((html {}).readLine 1 "<div>".toList (stateAfter ["</>"])).state = none ∧
      (html {}).openElement
        ((html {}).readLine 1 "<div>".toList (stateAfter ["</>"])).state = none := by
  refine ⟨.readLines (.start 0) 0 _, ?_, ?_, ?_, ?_⟩ <;> decide +kernel

end Markup

end MixedMarkup
