import MixedMarkup.Proofs.Consumption
/-!
# Markup — what a token does to the tag being read

A token of the markup tokenizers is a lexeme of a tag, or a `<` that gives
an unfinished tag up, or it stands aside of all tags (`TagMove`). What
each lexeme does to the stage is said once, in the lemmas on
`Flavour.step`: the name of a tag is awaited from an opening delimiter to
the next word, attributes are read from there to the end of the tag, and
only an end met among attributes opens an element.
-/

namespace MixedMarkup

open Cursor

namespace Markup

/-- A zone within a tag. -/
def Zone.InTag : Zone → Prop
  | .tag | .value _ => True
  | .text | .verbatim _ | .doctype => False

/-- A stage at which the opening tag being read has its name. -/
def Stage.Named : Stage → Prop
  | .attributes | .afterAttribute | .value | .afterValue => True
  | .base | .tagName | .closeName | .closing | .closingError => False

/-- The lexeme that a call reads; `none` for blanks and for what no tag is
made of. -/
def lexemeAt (c : Cursor) (s : State) : Option Lexeme :=
  match c.readBlanks? with
  | some _ => none
  | none => (readPiece c (Setup.enter c s)).lexeme

/-- A call reads a `<` inside a tag, which gives the tag up. -/
def GivesUp (c : Cursor) (s : State) : Prop := s.zone = .tag ∧ c.peek? = some '<'

/-- A call reads a delimiter, or a `<` that gives a tag up. -/
def BeginsTag (c : Cursor) (s : State) : Prop :=
  lexemeAt c s = some .openTag ∨ lexemeAt c s = some .closeTag ∨ GivesUp c s

/-- An opening tag of the given name is being read. -/
structure State.InNamedTag (s : State) (name : String) : Prop where
  zone : s.zone.InTag
  stage : s.stage.Named
  tagName : s.tagName = some name

/-- The stages of attributes are met in named tags only. -/
def State.Settled (s : State) : Prop := s.stage.Named → ∃ name, s.InNamedTag name

/-- The zones before and after a lexeme, and the texts it may have. -/
def Lexeme.Joins : Lexeme → Zone → Zone → List Char → Prop
  | openTag, z, z', text => z = .text ∧ z' = .tag ∧ text = ['<']
  | closeTag, z, z', text => z = .text ∧ z' = .tag ∧ text = ['<', '/']
  | endTag, z, z', text => z = .tag ∧ z' = .text ∧ text = ['>']
  | selfClose, z, z', text => z = .tag ∧ z' = .text ∧ text = ['/', '>']
  | equals, z, z', text => z = .tag ∧ z' = .tag ∧ text = ['=']
  | word, z, z', _ => z = .tag ∧ z' = .tag
  | quoted, z, z', _ => z.InTag ∧ z'.InTag

namespace Lexeme

variable {l : Lexeme} {z z' : Zone} {text : List Char}

/-- All lexemes but the delimiters come within a tag. -/
theorem Joins.inTag_before (h : l.Joins z z' text) (hopen : l ≠ .openTag)
    (hclose : l ≠ .closeTag) : z.InTag := by
  cases l <;> simp_all [Joins, Zone.InTag]

/-- And delimiters come outside tags. -/
theorem Joins.not_inTag (h : l.Joins z z' text) (hl : l = .openTag ∨ l = .closeTag) :
    ¬ z.InTag := by
  rcases hl with rfl | rfl <;> simp [h.1, Zone.InTag]

/-- An end of a tag leads out of it. -/
theorem Joins.not_inTag_after (h : l.Joins z z' text) (hl : l = .endTag ∨ l = .selfClose) :
    ¬ z'.InTag := by
  rcases hl with rfl | rfl <;> simp [h.2.1, Zone.InTag]

/-- All other lexemes leave one being read. -/
theorem Joins.inTag_after (h : l.Joins z z' text) (hend : l ≠ .endTag)
    (hself : l ≠ .selfClose) : z'.InTag := by
  cases l <;> simp_all [Joins, Zone.InTag]

end Lexeme

/-! ## The lexical layer -/

/-- The tag layer finds the same tag in both states. -/
structure State.SameTag (s s' : State) : Prop where
  stage : s'.stage = s.stage
  tagName : s'.tagName = s.tagName
  opened : s'.opened = s.opened

/-- A piece stands outside all tags and leaves the tag layer alone. -/
structure Piece.Aside (s : State) (p : Piece) : Prop where
  lexeme : p.lexeme = none
  zone : ¬ p.state.zone.InTag
  same : s.SameTag p.state

/-- What a piece can be to the tag being read. -/
inductive Piece.Fits (c : Cursor) (s : State) (p : Piece) : Prop
  | lexeme {l : Lexeme} : p.lexeme = some l → ¬ GivesUp c s →
      l.Joins s.zone p.state.zone p.cursor.token → s.SameTag p.state → Fits c s p
  | givesUp : p.lexeme = none → GivesUp c s → p.state.zone = .text → p.state.stage = .base →
      p.state.opened = s.opened → Fits c s p
  | aside : ¬ s.zone.InTag → p.Aside s → Fits c s p

variable {c : Cursor} {s : State}

theorem aside_inVerbatim (v : Verbatim) (c : Cursor) (s : State) : (inVerbatim v c s).Aside s := by
  refine ⟨rfl, ?_, rfl, rfl, rfl⟩
  simp only [inVerbatim]
  split <;> simp [Zone.InTag]

theorem aside_inDoctype (c : Cursor) (s : State) : (inDoctype c s).Aside s := by
  refine ⟨rfl, ?_, rfl, rfl, rfl⟩
  simp only [inDoctype]
  split <;> simp [Zone.InTag]

theorem aside_inEntity (c : Cursor) (hzone : ¬ s.zone.InTag) : (inEntity c s).Aside s := by
  simp only [inEntity]
  split
  · exact ⟨rfl, hzone, rfl, rfl, rfl⟩
  · split <;> exact ⟨rfl, hzone, rfl, rfl, rfl⟩

theorem aside_inDeclaration (c : Cursor) (hzone : ¬ s.zone.InTag) :
    (inDeclaration c s).Aside s := by
  unfold inDeclaration
  split
  · split
    · exact aside_inVerbatim _ _ s
    · exact ⟨rfl, hzone, rfl, rfl, rfl⟩
  · split
    · exact aside_inVerbatim _ _ s
    · split
      · exact aside_inDoctype _ s
      · exact ⟨rfl, hzone, rfl, rfl, rfl⟩

/-- After a `<` between tags comes a delimiter, or something that is no
tag. -/
theorem fits_inDelimiter {d : Cursor} (hzone : s.zone = .text) (hd : d.token = ['<']) :
    (inDelimiter d s).Fits c s := by
  have hout : ¬ s.zone.InTag := by simp [hzone, Zone.InTag]
  have hgives : ¬ GivesUp c s := by
    rintro ⟨htag, -⟩
    simp [hzone] at htag
  unfold inDelimiter
  split
  · exact .aside hout (aside_inDeclaration _ hout)
  · split
    · exact .aside hout (aside_inVerbatim _ _ s)
    · split
      · rename_i e he
        have htoken : e.token = ['<', '/'] := by rw [(took_readChar? he).token, hd]; rfl
        exact .lexeme rfl hgives ⟨hzone, rfl, htoken⟩ ⟨rfl, rfl, rfl⟩
      · exact .lexeme rfl hgives ⟨hzone, rfl, hd⟩ ⟨rfl, rfl, rfl⟩

theorem fits_inText (hc : c.token = []) (hzone : s.zone = .text) : (inText c s).Fits c s := by
  have hout : ¬ s.zone.InTag := by simp [hzone, Zone.InTag]
  unfold inText
  split
  · exact .aside hout ⟨rfl, hout, rfl, rfl, rfl⟩
  · rename_i d hd
    have htoken : d.token = ['<'] := by rw [(took_next? hd).token, hc]; rfl
    exact fits_inDelimiter hzone htoken
  · exact .aside hout (aside_inEntity _ hout)
  · exact .aside hout ⟨rfl, hout, rfl, rfl, rfl⟩

theorem fits_inValue {quote : Char} {d : Cursor} {s' : State} (hgives : ¬ GivesUp c s)
    (hzone : s.zone.InTag) (hsame : s.SameTag s') : (inValue quote d s').Fits c s := by
  refine .lexeme (l := .quoted) rfl hgives ⟨hzone, ?_⟩
    ⟨hsame.stage, hsame.tagName, hsame.opened⟩
  simp only [inValue]
  split <;> simp [Zone.InTag]

theorem fits_inTag (hc : c.token = []) (hrest : c.rest ≠ []) (hzone : s.zone = .tag) :
    (inTag c s).Fits c s := by
  unfold inTag
  split
  · rename_i hnext
    exact absurd (next?_eq_none hnext) hrest
  · rename_i ch d hd
    have hpeek := (next?_eq_some hd).1
    have htoken : d.token = [ch] := by rw [(took_next? hd).token, hc]; rfl
    -- the character ahead decides what the piece is, and a `<` alone gives the tag up
    have hgives (hch : ch ≠ '<') : ¬ GivesUp c s := by
      rintro ⟨-, hlt⟩
      rw [hpeek] at hlt
      exact hch (Option.some.inj hlt)
    split
    · rename_i hch
      obtain rfl : ch = '>' := by simpa using hch
      exact .lexeme rfl (hgives (by decide)) ⟨hzone, rfl, htoken⟩ ⟨rfl, rfl, rfl⟩
    split
    · rename_i hch
      obtain rfl : ch = '=' := by simpa using hch
      exact .lexeme rfl (hgives (by decide)) ⟨hzone, hzone, htoken⟩ ⟨rfl, rfl, rfl⟩
    split
    · rename_i hch
      obtain rfl : ch = '<' := by simpa using hch
      exact .givesUp rfl ⟨hzone, hpeek⟩ rfl rfl rfl
    rename_i hlt
    have hother : ¬ GivesUp c s := hgives (by simpa using hlt)
    split
    · exact fits_inValue hother (by simp [hzone, Zone.InTag]) ⟨rfl, rfl, rfl⟩
    split
    · rename_i hslash
      obtain ⟨rfl, hnext⟩ : ch = '/' ∧ d.peek? = some '>' := by simpa using hslash
      have hend : (d.read 1).token = ['/', '>'] := by
        rw [(took_read_one hnext).token, htoken]
        rfl
      exact .lexeme rfl hother ⟨hzone, rfl, hend⟩ ⟨rfl, rfl, rfl⟩
    · exact .lexeme rfl hother ⟨hzone, hzone⟩ ⟨rfl, rfl, rfl⟩

/-- **Every piece fits**, in whatever zone it is read. -/
theorem fits_readPiece (hc : c.token = []) (hrest : c.rest ≠ []) : (readPiece c s).Fits c s := by
  unfold readPiece
  split
  · rename_i hzone
    exact fits_inText hc hzone
  · rename_i hzone
    exact fits_inTag hc hrest hzone
  · rename_i quote hzone
    refine fits_inValue ?_ (by simp [hzone, Zone.InTag]) ⟨rfl, rfl, rfl⟩
    rintro ⟨htag, -⟩
    simp [hzone] at htag
  · rename_i v hzone
    exact .aside (by simp [hzone, Zone.InTag]) (aside_inVerbatim v c s)
  · rename_i hzone
    exact .aside (by simp [hzone, Zone.InTag]) (aside_inDoctype c s)

/-- A `<` that gives a tag up is no lexeme of it. -/
theorem lexemeAt_of_givesUp (hc : c.token = []) (hrest : c.rest ≠ []) (h : GivesUp c s) :
    lexemeAt c s = none := by
  unfold lexemeAt
  split
  · rfl
  · cases fits_readPiece (s := Setup.enter c s) hc hrest with
    | lexeme _ hgives => exact absurd h hgives
    | givesUp hlexeme => exact hlexeme
    | aside _ haside => exact haside.lexeme

/-- The end of a tag is read where a `>` is ahead. -/
theorem peek?_of_endTag (hc : c.token = []) (hrest : c.rest ≠ [])
    (h : lexemeAt c s = some .endTag) : c.peek? = some '>' := by
  unfold lexemeAt at h
  split at h
  · simp at h
  · cases fits_readPiece (s := Setup.enter c s) hc hrest with
    | lexeme hlexeme _ hjoins =>
      obtain rfl := Option.some.inj (hlexeme.symm.trans h)
      obtain ⟨text, -, htook⟩ := advances_readPiece hc hrest (Setup.enter c s)
      have htext : text = ['>'] := by
        rw [← hjoins.2.2, htook.token, hc, List.nil_append]
      simp [peek?, htook.rest, htext]
    | givesUp hlexeme => simp [hlexeme] at h
    | aside _ haside => simp [haside.lexeme] at h

/-! ## The tag layer -/

theorem State.openedElement_of_not_opened (h : s.opened = false) : s.openedElement = none := by
  simp [openedElement, h]

namespace Flavour

variable (f : Flavour) (l : Lexeme) (c : Cursor)

@[simp] theorem zone_finishOpening (selfClosed : Bool) (s : State) :
    (f.finishOpening selfClosed s).zone = s.zone := by
  simp only [finishOpening]
  split <;> rfl

@[simp] theorem stage_finishOpening (selfClosed : Bool) (s : State) :
    (f.finishOpening selfClosed s).stage = .base := by
  simp only [finishOpening]
  split <;> rfl

theorem openedElement_finishOpening (selfClosed : Bool) {s : State} (h : s.opened = false) :
    (f.finishOpening selfClosed s).openedElement =
      if selfClosed || f.isVoid (s.tagName.getD "") then none else some (s.tagName.getD "") := by
  simp only [finishOpening]
  split
  · exact State.openedElement_of_not_opened h
  · rfl

/-- The tag layer leaves the zone to the lexical one. -/
theorem zone_step (s : State) : (f.step l c s).1.zone = s.zone := by
  unfold step stepCloseName stepAttribute stepClose
  cases s.stage <;> cases l <;> simp [State.pop] <;> split <;> rfl

/-- **Where a name is awaited**, a word is the name, and everything else,
even the end of the tag or another delimiter, leaves it awaited. -/
theorem step_of_awaited (h : s.stage = .tagName) :
    l = .word ∧ (f.step l c s).1 =
        { s with stage := .attributes, tagName := some (f.elementName c.token) } ∨
      l ≠ .word ∧ (f.step l c s).1 = s := by
  by_cases hl : l = .word
  · exact .inl ⟨hl, by simp [step, h, hl]⟩
  · exact .inr ⟨hl, by simp [step, h, hl]⟩

theorem stepAttribute_of_inside (hend : l ≠ .endTag) (hself : l ≠ .selfClose) :
    (f.stepAttribute l s).1.stage.Named ∧ (f.stepAttribute l s).1.tagName = s.tagName ∧
      (f.stepAttribute l s).1.opened = s.opened := by
  cases l <;> simp [stepAttribute, Stage.Named] at *

/-- **After the name** the tag is read on until an end of it comes. -/
theorem step_of_named (h : s.stage.Named) :
    l = .endTag ∧ (f.step l c s).1 = f.finishOpening false s ∨
      l = .selfClose ∧ (f.step l c s).1 = f.finishOpening true s ∨
      l ≠ .endTag ∧ l ≠ .selfClose ∧ (f.step l c s).1.stage.Named ∧
        (f.step l c s).1.tagName = s.tagName ∧ (f.step l c s).1.opened = s.opened := by
  by_cases hend : l = .endTag
  · refine .inl ⟨hend, ?_⟩
    cases hstage : s.stage <;> simp [step, stepAttribute, hstage, hend, Stage.Named] at *
  by_cases hself : l = .selfClose
  · refine .inr (.inl ⟨hself, ?_⟩)
    cases hstage : s.stage <;> simp [step, stepAttribute, hstage, hself, Stage.Named] at *
  refine .inr (.inr ⟨hend, hself, ?_⟩)
  -- what is no end is read as an attribute, or completes one
  have hattribute := f.stepAttribute_of_inside (s := s) l hend hself
  unfold step
  split
  case h_1 hstage | h_2 hstage | h_3 hstage | h_4 hstage | h_5 hstage =>
    simp [hstage, Stage.Named] at h
  case h_6 => exact hattribute
  case h_7 =>
    split
    · exact ⟨trivial, rfl, rfl⟩
    · exact hattribute
  case h_8 =>
    split
    · exact ⟨trivial, rfl, rfl⟩
    · split
      · exact ⟨trivial, rfl, rfl⟩
      · exact hattribute
  case h_9 =>
    split
    · exact ⟨h, rfl, rfl⟩
    · exact hattribute

/-- **Elsewhere** the delimiter of an opening tag, outside all tags, is all
that a name is awaited after. -/
theorem step_of_unnamed (hawaited : s.stage ≠ .tagName) (hnamed : ¬ s.stage.Named) :
    ((f.step l c s).1.stage = .tagName ↔ s.stage = .base ∧ l = .openTag) ∧
      ¬ (f.step l c s).1.stage.Named ∧ (f.step l c s).1.opened = s.opened := by
  unfold step
  split
  case h_1 hstage => cases l <;> simp [hstage, Stage.Named]
  case h_2 hstage => exact absurd hstage hawaited
  case h_3 hstage =>
    split
    · simp only [stepCloseName]
      split <;> simp [hstage, Stage.Named]
    · simp [hstage, Stage.Named]
  case h_4 hstage | h_5 hstage =>
    simp only [stepClose]
    split <;> simp [hstage, Stage.Named, State.pop]
  case h_6 hstage | h_7 hstage | h_8 hstage | h_9 hstage =>
    simp [hstage, Stage.Named] at hnamed

/-- **How a tag comes to have a name**: it was awaited and has just come, or
the tag had it and has not ended. -/
theorem named_step_iff (name : String) :
    (f.step l c s).1.stage.Named ∧ (f.step l c s).1.tagName = some name ↔
      l = .word ∧ s.stage = .tagName ∧ f.elementName c.token = name ∨
        (s.stage.Named ∧ s.tagName = some name) ∧ l ≠ .endTag ∧ l ≠ .selfClose := by
  by_cases hawaited : s.stage = .tagName
  · rcases f.step_of_awaited l c hawaited with ⟨rfl, hstep⟩ | ⟨hword, hstep⟩
    · simp [hstep, hawaited, Stage.Named]
    · simp [hstep, hawaited, hword, Stage.Named]
  by_cases hnamed : s.stage.Named
  · rcases f.step_of_named l c hnamed with
      ⟨rfl, hstep⟩ | ⟨rfl, hstep⟩ | ⟨hend, hself, hnamed', hname, -⟩
    · simp [hstep, Stage.Named]
    · simp [hstep, Stage.Named]
    · simp [hawaited, hnamed, hnamed', hname, hend, hself]
  · simp [(f.step_of_unnamed l c hawaited hnamed).2.1, hawaited, hnamed]

/-- **What opens an element**: the end of a tag that has its name, where
the element of that name has a body. -/
theorem openedElement_step_iff (h : s.opened = false) {e : String} :
    (f.step l c s).1.openedElement = some e ↔
      l = .endTag ∧ s.stage.Named ∧ s.tagName.getD "" = e ∧ f.isVoid e = false := by
  by_cases hawaited : s.stage = .tagName
  · have hclosed : (f.step l c s).1.opened = false := by
      rcases f.step_of_awaited l c hawaited with ⟨-, hstep⟩ | ⟨-, hstep⟩
      · rw [hstep, h]
      · rw [hstep, h]
    simp [State.openedElement_of_not_opened hclosed, hawaited, Stage.Named]
  by_cases hnamed : s.stage.Named
  · rcases f.step_of_named l c hnamed with ⟨rfl, hstep⟩ | ⟨rfl, hstep⟩ | ⟨hend, -, -, -, hsame⟩
    · rw [hstep, f.openedElement_finishOpening false h]
      cases hvoid : f.isVoid (s.tagName.getD "") with
      | true =>
        simp only [Bool.false_or, if_true, reduceCtorEq, false_iff]
        rintro ⟨-, -, rfl, hbody⟩
        simp [hvoid] at hbody
      | false =>
        simp only [Bool.false_or, Bool.false_eq_true, if_false, Option.some.injEq, true_and,
          hnamed]
        constructor
        · rintro rfl
          exact ⟨rfl, hvoid⟩
        · rintro ⟨he, -⟩
          exact he
    · rw [hstep, f.openedElement_finishOpening true h]
      simp
    · simp [State.openedElement_of_not_opened (hsame.trans h), hend]
  · obtain ⟨-, -, hsame⟩ := f.step_of_unnamed l c hawaited hnamed
    simp [State.openedElement_of_not_opened (hsame.trans h), hnamed]

end Flavour

/-! ## Tokens -/

/-- What a call of a markup tokenizer can do to the tag being read. -/
inductive TagMove (f : Flavour) (c : Cursor) (s : State) (r : Step State) : Prop
  /-- A lexeme of a tag, which the tag layer gets. -/
  | lexeme {l : Lexeme} {p : State} : lexemeAt c s = some l → ¬ GivesUp c s →
      l.Joins s.zone r.state.zone r.cursor.token → p.stage = s.stage → p.tagName = s.tagName →
      p.opened = false → r.state = (f.step l r.cursor p).1 → TagMove f c s r
  /-- A `<` that gives the tag up. -/
  | givesUp : lexemeAt c s = none → GivesUp c s → r.state.zone = .text → r.state.stage = .base →
      r.state.opened = false → TagMove f c s r
  /-- Blanks, or something outside tags. -/
  | aside : lexemeAt c s = none → ¬ GivesUp c s → (r.state.zone.InTag ↔ s.zone.InTag) →
      r.state.stage = s.stage → r.state.tagName = s.tagName → r.state.opened = false →
      TagMove f c s r

/-- **Every call of a markup tokenizer is such a move.** -/
theorem Setup.tagMove_token (m : Setup) (hc : c.token = []) (hrest : c.rest ≠ []) :
    TagMove m.flavour c s (m.token c s) := by
  cases hblanks : c.readBlanks? with
  | some d =>
    have htoken : m.token c s = ⟨none, d, enter c s⟩ := by simp only [token, hblanks]
    have hlexeme : lexemeAt c s = none := by simp only [lexemeAt, hblanks]
    rw [htoken]
    refine .aside hlexeme ?_ Iff.rfl rfl rfl rfl
    rintro ⟨-, hpeek⟩
    have hlt : Text.isBlank '<' = false := by decide
    simp [readBlanks?, readWhile?, readIf?, hpeek, hlt] at hblanks
  | none =>
    have hlexeme : lexemeAt c s = (readPiece c (enter c s)).lexeme := by
      simp only [lexemeAt, hblanks]
    have hfits := fits_readPiece (s := enter c s) hc hrest
    cases hfits with
    | @lexeme l hl hgives hjoins hsame =>
      have htoken : m.token c s = ⟨(m.flavour.step l (readPiece c (enter c s)).cursor
          (readPiece c (enter c s)).state).2 <|> (readPiece c (enter c s)).style,
          (readPiece c (enter c s)).cursor, (m.flavour.step l (readPiece c (enter c s)).cursor
            (readPiece c (enter c s)).state).1⟩ := by
        simp only [token, hblanks, hl]
      rw [htoken]
      refine .lexeme (hlexeme.trans hl) hgives ?_ hsame.stage hsame.tagName hsame.opened rfl
      rw [Flavour.zone_step]
      exact hjoins
    | givesUp hl hgives hzone hstage hopened =>
      have htoken : (m.token c s).state = (readPiece c (enter c s)).state := by
        simp only [token, hblanks, hl]
      exact .givesUp (hlexeme.trans hl) hgives (htoken ▸ hzone) (htoken ▸ hstage)
        (htoken ▸ hopened)
    | aside hbefore haside =>
      have htoken : (m.token c s).state = (readPiece c (enter c s)).state := by
        simp only [token, hblanks, haside.lexeme]
      refine .aside (hlexeme.trans haside.lexeme) ?_ ?_ ?_ ?_ ?_
      · rintro ⟨htag, -⟩
        exact hbefore (by simp [enter, htag, Zone.InTag])
      · rw [htoken]
        exact ⟨fun h => absurd h haside.zone, fun h => absurd h hbefore⟩
      · rw [htoken, haside.same.stage]
        rfl
      · rw [htoken, haside.same.tagName]
        rfl
      · rw [htoken, haside.same.opened]
        rfl

namespace Setup

variable (m : Setup) (hc : c.token = []) (hrest : c.rest ≠ [])
include hc hrest

/-- The zones around a lexeme, and its text. -/
theorem joins_token {l : Lexeme} (h : lexemeAt c s = some l) :
    l.Joins s.zone (m.token c s).state.zone (m.token c s).cursor.token := by
  cases m.tagMove_token (s := s) hc hrest with
  | lexeme hl hgives hjoins =>
    obtain rfl := Option.some.inj (hl.symm.trans h)
    exact hjoins
  | givesUp hl => simp [hl] at h
  | aside hl => simp [hl] at h

/-- **What opens an element**, of a whole call. -/
theorem openedElement_token_iff {e : String} : (m.token c s).state.openedElement = some e ↔
      lexemeAt c s = some .endTag ∧ s.stage.Named ∧ s.tagName.getD "" = e ∧
        m.flavour.isVoid e = false := by
  cases m.tagMove_token (s := s) hc hrest with
  | lexeme hl hgives hjoins hstage hname hopened hstate =>
    rw [hstate, m.flavour.openedElement_step_iff _ _ hopened, hl, hstage, hname,
      Option.some.injEq]
  | givesUp hl hgives hzone hstage hopened =>
    simp [State.openedElement_of_not_opened hopened, hl]
  | aside hl hgives hzone hstage hname hopened =>
    simp [State.openedElement_of_not_opened hopened, hl]

/-- A name is awaited after an opening delimiter outside tags, until a word
comes or the tag is given up. -/
theorem stage_token_eq_tagName_iff : (m.token c s).state.stage = .tagName ↔
    lexemeAt c s = some .openTag ∧ s.stage = .base ∨
      s.stage = .tagName ∧ lexemeAt c s ≠ some .word ∧ ¬ GivesUp c s := by
  cases m.tagMove_token (s := s) hc hrest with
  | @lexeme l p hl hgives hjoins hstage hname hopened hstate =>
    rw [hstate, hl, ← hstage]
    by_cases hawaited : p.stage = .tagName
    · rcases m.flavour.step_of_awaited l (m.token c s).cursor hawaited with
        ⟨rfl, hstep⟩ | ⟨hl', hstep⟩
      · simp [hstep]
      · simp [hstep, hawaited, hl', hgives]
    by_cases hnamed : p.stage.Named
    · have hbase : p.stage ≠ .base := by
        intro h
        simp [h, Stage.Named] at hnamed
      have hnot : (m.flavour.step l (m.token c s).cursor p).1.stage ≠ .tagName := by
        rcases m.flavour.step_of_named l (m.token c s).cursor hnamed with
          ⟨-, hstep⟩ | ⟨-, hstep⟩ | ⟨-, -, hstep, -⟩
        · simp [hstep]
        · simp [hstep]
        · intro h
          simp [h, Stage.Named] at hstep
      simp [hnot, hbase, hawaited]
    · rw [(m.flavour.step_of_unnamed l (m.token c s).cursor hawaited hnamed).1]
      simp [hawaited, and_comm]
  | givesUp hl hgives hzone hstage hopened => simp [hl, hstage, hgives]
  | aside hl hgives hzone hstage hname hopened => simp [hl, hstage, hgives]

/-- A call that begins no tag enters none. -/
theorem inTag_of_inTag_token (hbegins : ¬ BeginsTag c s)
    (h : (m.token c s).state.zone.InTag) : s.zone.InTag := by
  cases m.tagMove_token (s := s) hc hrest with
  | lexeme hl hgives hjoins =>
    refine hjoins.inTag_before ?_ ?_
    · rintro rfl
      exact hbegins (.inl hl)
    · rintro rfl
      exact hbegins (.inr (.inl hl))
  | givesUp hl hgives => exact absurd (.inr (.inr hgives)) hbegins
  | aside hl hgives hzone => exact hzone.mp h

/-- **How a named tag comes to be read**: the name that was awaited has just
been read, or the tag was being read before and goes on. -/
theorem inNamedTag_token_iff (hs : s.Settled) {name : String} :
    (m.token c s).state.InNamedTag name ↔
      lexemeAt c s = some .word ∧ s.stage = .tagName ∧
          m.flavour.elementName (m.token c s).cursor.token = name ∨
        s.InNamedTag name ∧ ¬ BeginsTag c s ∧ (m.token c s).state.zone.InTag := by
  cases m.tagMove_token (s := s) hc hrest with
  | @lexeme l p hl hgives hjoins hstage hname hopened hstate =>
    have hnamed := m.flavour.named_step_iff l (m.token c s).cursor (s := p) name
    rw [← hstate, hstage, hname] at hnamed
    constructor
    · intro h
      rcases hnamed.mp ⟨h.stage, h.tagName⟩ with ⟨rfl, hword⟩ | ⟨⟨hstage', hname'⟩, -⟩
      · exact .inl ⟨hl, hword⟩
      · -- a delimiter comes outside tags, and this state is inside one
        obtain ⟨_, hin⟩ := hs hstage'
        refine .inr ⟨⟨hin.zone, hstage', hname'⟩, ?_, h.zone⟩
        rintro (hopen | hclose | hgives')
        · exact hjoins.not_inTag (.inl (Option.some.inj (hl.symm.trans hopen))) hin.zone
        · exact hjoins.not_inTag (.inr (Option.some.inj (hl.symm.trans hclose))) hin.zone
        · exact hgives hgives'
    · rintro (⟨hword, hrest⟩ | ⟨h, -, hzone⟩)
      · obtain rfl : l = .word := Option.some.inj (hl.symm.trans hword)
        obtain ⟨hstage', hname'⟩ := hnamed.mpr (.inl ⟨rfl, hrest⟩)
        exact ⟨hjoins.inTag_after (by decide) (by decide), hstage', hname'⟩
      · have hin : l ≠ .endTag ∧ l ≠ .selfClose :=
          ⟨fun he => hjoins.not_inTag_after (.inl he) hzone,
            fun he => hjoins.not_inTag_after (.inr he) hzone⟩
        obtain ⟨hstage', hname'⟩ := hnamed.mpr (.inr ⟨⟨h.stage, h.tagName⟩, hin⟩)
        exact ⟨hzone, hstage', hname'⟩
  | givesUp hl hgives hzone hstage hopened =>
    constructor
    · intro h
      have := h.stage
      simp [hstage, Stage.Named] at this
    · rintro (⟨hword, -⟩ | ⟨-, hbegins, -⟩)
      · simp [hl] at hword
      · exact absurd (.inr (.inr hgives)) hbegins
  | aside hl hgives hzone hstage hname hopened =>
    constructor
    · intro h
      refine .inr ⟨⟨hzone.mp h.zone, hstage ▸ h.stage, hname ▸ h.tagName⟩, ?_, h.zone⟩
      simp [BeginsTag, hl, hgives]
    · rintro (⟨hword, -⟩ | ⟨h, -, hzone'⟩)
      · simp [hl] at hword
      · exact ⟨hzone', hstage ▸ h.stage, hname ▸ h.tagName⟩

/-- The stages of attributes stay in named tags. -/
theorem settled_token (hs : s.Settled) : (m.token c s).state.Settled := by
  intro h
  cases m.tagMove_token (s := s) hc hrest with
  | @lexeme l p hl hgives hjoins hstage hname hopened hstate =>
    rw [hstate] at h hjoins ⊢
    by_cases hawaited : p.stage = .tagName
    · rcases m.flavour.step_of_awaited l (m.token c s).cursor hawaited with
        ⟨rfl, hstep⟩ | ⟨-, hstep⟩
      · exact ⟨_, hjoins.inTag_after (by decide) (by decide), h, by rw [hstep]⟩
      · simp [hstep, hawaited, Stage.Named] at h
    by_cases hnamed : p.stage.Named
    · obtain ⟨name, hin⟩ := hs (hstage ▸ hnamed)
      rcases m.flavour.step_of_named l (m.token c s).cursor hnamed with
        ⟨-, hstep⟩ | ⟨-, hstep⟩ | ⟨hend, hself, -, hname', -⟩
      · simp [hstep, Stage.Named] at h
      · simp [hstep, Stage.Named] at h
      · exact ⟨name, hjoins.inTag_after hend hself, h, by rw [hname', hname, hin.tagName]⟩
    · exact absurd h (m.flavour.step_of_unnamed l (m.token c s).cursor hawaited hnamed).2.1
  | givesUp hl hgives hzone hstage hopened => simp [hstage, Stage.Named] at h
  | aside hl hgives hzone hstage hname hopened =>
    obtain ⟨name, hin⟩ := hs (hstage ▸ h)
    exact ⟨name, hzone.mpr hin.zone, h, hname ▸ hin.tagName⟩

end Setup

end Markup

end MixedMarkup
