import MixedMarkup.Proofs.Abreast
import MixedMarkup.Proofs.TagStages
/-!
# Markup — states that read alike

Of a markup state, tokens depend on the zone, the stage, the name of the
tag being read, while it has one, and the names of the open elements; the
columns and indentations beside them matter to indentation only. States
that agree on the former are alike, and alike states read alike: from
cursors abreast they make the same token and are alike again after it
(`Setup.token_abreast`). The lines themselves may differ in everything
that the cursors have behind them, and behind the stop ahead of them.
-/

namespace MixedMarkup

open Cursor Text

namespace Markup

/-- Two states differ at most in what indentation depends on. -/
structure State.Alike (s s' : State) : Prop where
  zone : s'.zone = s.zone
  stage : s'.stage = s.stage
  tagName : s.stage.Named → s'.tagName = s.tagName
  names : s'.context.map (·.name) = s.context.map (·.name)

theorem State.Alike.refl (s : State) : s.Alike s := ⟨rfl, rfl, fun _ => rfl, rfl⟩

variable {s s' : State}

theorem State.Alike.openElement (h : s.Alike s') : s'.openElement = s.openElement := by
  rw [State.openElement, State.openElement, ← List.head?_map, ← List.head?_map, h.names]

/-! ## The tag layer -/

namespace Flavour

variable (f : Flavour) {l : Lexeme} {c d : Cursor} {context context' : List Element}

/-- Which elements an opening tag ends depends on their names. -/
theorem map_name_afterGrabs (next : String)
    (h : context'.map (·.name) = context.map (·.name)) :
    (f.afterGrabs next context').map (·.name) = (f.afterGrabs next context).map (·.name) := by
  induction context generalizing context' with
  | nil =>
    rw [List.map_eq_nil_iff.mp h]
  | cons top outer ih =>
    cases context' with
    | nil => simp at h
    | cons top' outer' =>
      obtain ⟨hname, houter⟩ := List.cons.inj h
      have hname : top'.name = top.name := hname
      simp only [afterGrabs, hname]
      split
      · exact ih houter
      · exact h

/-- And so does the element that a closing tag implies the end of. -/
theorem map_name_afterImplied (name : String)
    (h : context'.map (·.name) = context.map (·.name)) :
    (f.afterImplied name context').map (·.name) = (f.afterImplied name context).map (·.name) := by
  cases context with
  | nil =>
    rw [List.map_eq_nil_iff.mp h]
  | cons top outer =>
    cases context' with
    | nil => simp at h
    | cons top' outer' =>
      obtain ⟨hname, houter⟩ := List.cons.inj h
      have hname : top'.name = top.name := hname
      simp only [afterImplied, hname]
      split
      · exact houter
      · exact h

theorem finishOpening_alike (selfClosed : Bool) (h : s.Alike s')
    (hname : s'.tagName = s.tagName) :
    (f.finishOpening selfClosed s).Alike (f.finishOpening selfClosed s') := by
  have hnames := f.map_name_afterGrabs (s.tagName.getD "") h.names
  simp only [finishOpening, hname]
  split
  · exact ⟨h.zone, rfl, fun _ => rfl, hnames⟩
  · refine ⟨h.zone, rfl, fun _ => rfl, ?_⟩
    simp only [State.push, List.map_cons, hnames]

theorem stepAttribute_alike (h : s.Alike s') (hname : s'.tagName = s.tagName) :
    (f.stepAttribute l s').2 = (f.stepAttribute l s).2 ∧
      (f.stepAttribute l s).1.Alike (f.stepAttribute l s').1 := by
  cases l with
  | endTag => exact ⟨rfl, f.finishOpening_alike false h hname⟩
  | selfClose => exact ⟨rfl, f.finishOpening_alike true h hname⟩
  | word | openTag | closeTag | equals | quoted =>
    exact ⟨rfl, h.zone, rfl, fun _ => hname, h.names⟩

theorem stepClose_alike (h : s.Alike s') :
    (stepClose l s').2 = (stepClose l s).2 ∧ (stepClose l s).1.Alike (stepClose l s').1 := by
  simp only [stepClose]
  split
  · refine ⟨rfl, h.zone, rfl, fun hnamed => hnamed.elim, ?_⟩
    simp only [State.pop, List.map_tail, h.names]
  · exact ⟨rfl, h.zone, rfl, fun hnamed => hnamed.elim, h.names⟩

theorem stepCloseName_alike (name : String) (h : s.Alike s') :
    (f.stepCloseName name s').2 = (f.stepCloseName name s).2 ∧
      (f.stepCloseName name s).1.Alike (f.stepCloseName name s').1 := by
  have halike : State.Alike { s with context := f.afterImplied name s.context }
      { s' with context := f.afterImplied name s'.context } :=
    ⟨h.zone, h.stage, h.tagName, f.map_name_afterImplied name h.names⟩
  simp only [stepCloseName, halike.openElement]
  split
  · exact ⟨rfl, h.zone, rfl, fun hnamed => hnamed.elim, halike.names⟩
  · exact ⟨rfl, h.zone, rfl, fun hnamed => hnamed.elim, halike.names⟩

/-- **The tag layer does the same to alike states**, where the lexeme has
the same text. -/
theorem step_alike (h : s.Alike s') (htext : d.token = c.token) :
    (f.step l d s').2 = (f.step l c s).2 ∧ (f.step l c s).1.Alike (f.step l d s').1 := by
  unfold step
  rw [h.stage, htext]
  cases hstage : s.stage with
  | base =>
    cases l with
    | openTag | closeTag => exact ⟨rfl, h.zone, rfl, fun hnamed => hnamed.elim, h.names⟩
    | endTag | selfClose | equals | word | quoted => exact ⟨rfl, h⟩
  | tagName =>
    dsimp only
    split
    · exact ⟨rfl, h.zone, rfl, fun _ => rfl, h.names⟩
    · exact ⟨rfl, h⟩
  | closeName =>
    dsimp only
    split
    · exact f.stepCloseName_alike _ h
    · exact ⟨rfl, h.zone, rfl, fun hnamed => hnamed.elim, h.names⟩
  | closing => exact stepClose_alike h
  | closingError => exact ⟨rfl, (stepClose_alike h).2⟩
  | attributes =>
    exact f.stepAttribute_alike h (h.tagName (by simp [hstage, Stage.Named]))
  | afterAttribute =>
    have hname := h.tagName (by simp [hstage, Stage.Named])
    obtain ⟨hstyle, halike⟩ := f.stepAttribute_alike (l := l) h hname
    dsimp only
    split
    · exact ⟨rfl, h.zone, rfl, fun _ => hname, h.names⟩
    · exact ⟨by rw [hstyle], halike⟩
  | value =>
    have hname := h.tagName (by simp [hstage, Stage.Named])
    obtain ⟨hstyle, halike⟩ := f.stepAttribute_alike (l := l) h hname
    dsimp only
    split
    · exact ⟨rfl, h.zone, rfl, fun _ => hname, h.names⟩
    · split
      · exact ⟨rfl, h.zone, rfl, fun _ => hname, h.names⟩
      · exact ⟨by rw [hstyle], halike⟩
  | afterValue =>
    have hname := h.tagName (by simp [hstage, Stage.Named])
    dsimp only
    split
    · exact ⟨rfl, h⟩
    · exact f.stepAttribute_alike h hname

end Flavour

/-! ## The lexical layer -/

/-- Two pieces are the same to a reader, and leave alike states. -/
structure Piece.Abreast (x y : List Char) (p q : Piece) : Prop where
  style : q.style = p.style
  lexeme : q.lexeme = p.lexeme
  cursor : p.cursor.Abreast x y q.cursor
  state : p.state.Alike q.state

section Pieces

variable {x y : List Char} {c d : Cursor} (hs : SameStop x y) (h : c.Abreast x y d)
  (halike : s.Alike s')
include hs h halike

theorem inVerbatim_abreast (v : Verbatim) (hstay : (inVerbatim v c s).cursor.StaysBefore x) :
    (inVerbatim v c s).Abreast x y (inVerbatim v d s') := by
  obtain ⟨hscan, hcursor⟩ := h.through hs (by cases v <;> decide) hstay
  simp only [inVerbatim, hscan]
  exact ⟨rfl, rfl, hcursor, rfl, halike.stage, halike.tagName, halike.names⟩

theorem inDoctype_abreast (hstay : (inDoctype c s).cursor.StaysBefore x) :
    (inDoctype c s).Abreast x y (inDoctype d s') := by
  obtain ⟨hscan, hcursor⟩ := h.through hs (by decide) hstay
  simp only [inDoctype, hscan]
  exact ⟨rfl, rfl, hcursor, rfl, halike.stage, halike.tagName, halike.names⟩

theorem inValue_abreast (quote : Char) (hstay : (inValue quote c s).cursor.StaysBefore x) :
    (inValue quote c s).Abreast x y (inValue quote d s') := by
  obtain ⟨hscan, hcursor⟩ := h.through hs (List.cons_ne_nil quote []) hstay
  simp only [inValue, hscan]
  exact ⟨rfl, rfl, hcursor, rfl, halike.stage, halike.tagName, halike.names⟩

omit halike in
/-- The text after `&` announces the same kind of entity. -/
theorem entityBody_abreast :
    (entityBody d).1 = (entityBody c).1 ∧ (entityBody c).2.Abreast x y (entityBody d).2 := by
  unfold entityBody
  rcases h.readChar? hs '#' (by decide) with ⟨hc, hd⟩ | ⟨c₁, d₁, hc, hd, h₁⟩
  · rw [hc, hd]
    exact ⟨rfl, h⟩
  · rw [hc, hd]
    dsimp only
    rcases h₁.readChar? hs 'x' (by decide) with ⟨hc, hd⟩ | ⟨c₂, d₂, hc, hd, h₂⟩
    · rw [hc, hd]
      exact ⟨rfl, h₁⟩
    · rw [hc, hd]
      exact ⟨rfl, h₂⟩

theorem inEntity_abreast : (inEntity c s).Abreast x y (inEntity d s') := by
  obtain ⟨hkind, hbody⟩ := entityBody_abreast hs h
  have hstop : (entityBody c).1 '>' = false := by
    have hentity : isEntityChar '>' = false := by decide +kernel
    unfold entityBody
    split
    · exact hentity
    · split
      · rfl
      · rfl
  simp only [inEntity, hkind]
  rcases hbody.readWhile? hs _ hstop with ⟨hc, hd⟩ | ⟨c₁, d₁, hc, hd, h₁⟩
  · rw [hc, hd]
    exact ⟨rfl, rfl, hbody, halike⟩
  · rw [hc, hd]
    dsimp only
    rcases h₁.readChar? hs ';' (by decide) with ⟨hc, hd⟩ | ⟨c₂, d₂, hc, hd, h₂⟩
    · rw [hc, hd]
      exact ⟨rfl, rfl, h₁, halike⟩
    · rw [hc, hd]
      exact ⟨rfl, rfl, h₂, halike⟩

theorem inDeclaration_abreast (hstay : (inDeclaration c s).cursor.StaysBefore x) :
    (inDeclaration c s).Abreast x y (inDeclaration d s') := by
  unfold inDeclaration at hstay ⊢
  rcases h.readChar? hs '[' (by decide) with ⟨hc, hd⟩ | ⟨c₁, d₁, hc, hd, h₁⟩
  · rw [hc] at hstay
    rw [hc, hd]
    dsimp only at hstay ⊢
    rcases h.readLiteral? hs "--".toList (by decide) with
      ⟨hc, hd⟩ | ⟨c₁, d₁, hc, hd, h₁⟩
    · rw [hc] at hstay
      rw [hc, hd]
      dsimp only at hstay ⊢
      rcases h.readLiteralAnyCase? hs "DOCTYPE".toList (by decide) with
        ⟨hc, hd⟩ | ⟨c₁, d₁, hc, hd, h₁⟩
      · rw [hc, hd]
        exact ⟨rfl, rfl, h, halike⟩
      · rw [hc] at hstay
        rw [hc, hd]
        exact inDoctype_abreast hs h₁ halike hstay
    · rw [hc] at hstay
      rw [hc, hd]
      exact inVerbatim_abreast hs h₁ halike _ hstay
  · rw [hc] at hstay
    rw [hc, hd]
    dsimp only at hstay ⊢
    rcases h₁.readLiteral? hs "CDATA[".toList (by decide) with
      ⟨hc, hd⟩ | ⟨c₂, d₂, hc, hd, h₂⟩
    · rw [hc, hd]
      exact ⟨rfl, rfl, h₁, halike⟩
    · rw [hc] at hstay
      rw [hc, hd]
      exact inVerbatim_abreast hs h₂ halike _ hstay

theorem inDelimiter_abreast (hstay : (inDelimiter c s).cursor.StaysBefore x) :
    (inDelimiter c s).Abreast x y (inDelimiter d s') := by
  unfold inDelimiter at hstay ⊢
  rcases h.readChar? hs '!' (by decide) with ⟨hc, hd⟩ | ⟨c₁, d₁, hc, hd, h₁⟩
  · rw [hc] at hstay
    rw [hc, hd]
    dsimp only at hstay ⊢
    rcases h.readChar? hs '?' (by decide) with ⟨hc, hd⟩ | ⟨c₁, d₁, hc, hd, h₁⟩
    · rw [hc, hd]
      dsimp only
      rcases h.readChar? hs '/' (by decide) with ⟨hc, hd⟩ | ⟨c₁, d₁, hc, hd, h₁⟩
      · rw [hc, hd]
        exact ⟨rfl, rfl, h, rfl, halike.stage, halike.tagName, halike.names⟩
      · rw [hc, hd]
        exact ⟨rfl, rfl, h₁, rfl, halike.stage, halike.tagName, halike.names⟩
    · rw [hc] at hstay
      rw [hc, hd]
      exact inVerbatim_abreast hs h₁ halike _ hstay
  · rw [hc] at hstay
    rw [hc, hd]
    exact inDeclaration_abreast hs h₁ halike hstay

theorem inText_abreast (hstay : (inText c s).cursor.StaysBefore x) :
    (inText c s).Abreast x y (inText d s') := by
  rcases h.next? hs with ⟨hc, hd⟩ | ⟨ch, hc, hd, h₁⟩
  · rw [inText, inText, hc, hd]
    exact ⟨rfl, rfl, h, halike⟩
  · by_cases hlt : ch = '<'
    · subst hlt
      simp only [inText, hc, hd] at hstay ⊢
      exact inDelimiter_abreast hs (h₁ (hstay.of_reaches (reaches_inDelimiter _ s))) halike hstay
    by_cases hamp : ch = '&'
    · subst hamp
      simp only [inText, hc, hd] at hstay ⊢
      exact inEntity_abreast hs (h₁ (hstay.of_reaches (reaches_inEntity _ s))) halike
    · simp only [inText, hc, hd] at hstay ⊢
      have h₁ := h₁ (hstay.of_reaches (reaches_skip _ _))
      exact ⟨rfl, rfl, h₁.skip hs hstay, halike⟩

omit halike in
/-- A word ends before the stop, and gives back the same slashes. -/
theorem inWord_abreast : (inWord c).Abreast x y (inWord d) := by
  have hskip := h.skip hs (h.staysBefore_skip hs (p := isWordChar) (by decide))
  simp only [inWord, hskip.token]
  exact hskip.unread _

theorem inTag_abreast (hstay : (inTag c s).cursor.StaysBefore x) :
    (inTag c s).Abreast x y (inTag d s') := by
  revert hstay
  unfold inTag
  rcases h.next? hs with ⟨hc, hd⟩ | ⟨ch, hc, hd, h₁⟩
  · rw [hc, hd]
    intro _
    exact ⟨rfl, rfl, h, halike⟩
  rw [hc, hd]
  dsimp only
  -- the first character stays before the stop because the whole piece does
  split
  · intro hstay
    exact ⟨rfl, rfl, h₁ hstay, rfl, halike.stage, halike.tagName, halike.names⟩
  rename_i hend
  split
  · intro hstay
    exact ⟨rfl, rfl, h₁ hstay, halike⟩
  split
  · intro hstay
    exact ⟨rfl, rfl, h₁ hstay, rfl, rfl, fun _ => rfl, halike.names⟩
  split
  · intro hstay
    have hvalue : State.Alike { s with valueColumn := (c.read 1).column }
        { s' with valueColumn := (d.read 1).column } :=
      ⟨halike.zone, halike.stage, halike.tagName, halike.names⟩
    exact inValue_abreast hs (h₁ (hstay.of_reaches (reaches_read _ _))) hvalue ch hstay
  have h₁ : (c.read 1).Abreast x y (d.read 1) := by
    have hch : ch ≠ '>' := by simpa using hend
    rcases h.readChar? hs ch hch with ⟨hnone, -⟩ | ⟨c₁, d₁, hread, hread', h₁⟩
    · simp [readChar?, readIf?, (next?_eq_some hc).1] at hnone
    · simp only [readChar?, readIf?, (next?_eq_some hc).1, (next?_eq_some hd).1, beq_self_eq_true,
        if_true, Option.map_some, Option.some.injEq] at hread hread'
      rwa [hread, hread']
  rw [h₁.peek? hs]
  split
  · rename_i hslash
    intro hstay
    have hpeek : (c.read 1).peek? = some '>' := by
      simp only [Bool.and_eq_true, beq_iff_eq] at hslash
      exact hslash.2
    exact ⟨rfl, rfl, h₁.read (one_le_of_peek? hpeek) hstay, rfl, halike.stage, halike.tagName,
      halike.names⟩
  · intro _
    exact ⟨rfl, rfl, inWord_abreast hs h₁, halike⟩

/-- **Every piece is read alike**, in whatever zone. -/
theorem readPiece_abreast (hstay : (readPiece c s).cursor.StaysBefore x) :
    (readPiece c s).Abreast x y (readPiece d s') := by
  revert hstay
  unfold readPiece
  rw [halike.zone]
  cases s.zone with
  | text => exact inText_abreast hs h halike
  | tag => exact inTag_abreast hs h halike
  | value quote => exact inValue_abreast hs h halike quote
  | verbatim v => exact inVerbatim_abreast hs h halike v
  | doctype => exact inDoctype_abreast hs h halike

end Pieces

/-! ## Tokens -/

/-- Two tokens are the same to a reader, and leave alike states. -/
structure Abreast (x y : List Char) (r r' : Step State) : Prop where
  style : r'.style = r.style
  cursor : r.cursor.Abreast x y r'.cursor
  state : r.state.Alike r'.state

theorem Setup.enter_alike (c d : Cursor) (h : s.Alike s') : (enter c s).Alike (enter d s') :=
  ⟨h.zone, h.stage, h.tagName, h.names⟩

/-- **Alike states read alike.** From cursors abreast they make the same
token, as long as it stays before the stop. -/
theorem Setup.token_abreast (m : Setup) {x y : List Char} {c d : Cursor} (hs : SameStop x y)
    (h : c.Abreast x y d) (halike : s.Alike s') (hstay : (m.token c s).cursor.StaysBefore x) :
    Markup.Abreast x y (m.token c s) (m.token d s') ∧ lexemeAt d s' = lexemeAt c s := by
  revert hstay
  unfold token lexemeAt
  dsimp only
  rcases h.readWhile? hs isBlank (by decide) with ⟨hc, hd⟩ | ⟨c₁, d₁, hc, hd, h₁⟩
  · rw [readBlanks?, readBlanks?, hc, hd]
    dsimp only
    intro hstay
    have hpiece : (readPiece c (enter c s)).Abreast x y (readPiece d (enter d s')) := by
      refine readPiece_abreast hs h (enter_alike c d halike) ?_
      revert hstay
      split
      · exact id
      · exact id
    refine ⟨?_, hpiece.lexeme⟩
    rw [hpiece.lexeme]
    split
    · exact ⟨hpiece.style, hpiece.cursor, hpiece.state⟩
    · obtain ⟨hstyle, hstate⟩ := m.flavour.step_alike hpiece.state hpiece.cursor.token
      exact ⟨by rw [hstyle, hpiece.style], hpiece.cursor, hstate⟩
  · rw [readBlanks?, readBlanks?, hc, hd]
    intro _
    exact ⟨⟨rfl, h₁, enter_alike c d halike⟩, rfl⟩

end Markup

end MixedMarkup
