import MixedMarkup.Proofs.LoweredReading
import MixedMarkup.Proofs.TagStages
/-!
# Markup in lower case

The html tokenizer reads names without their case, and looks at letters in
two more places only: a `CDATA` may follow `<![`, and an `x` may follow `&#`.
So on a text without these two it makes in lower case the tokens that it makes
of the text as it stands, and leaves the same states (`html_readsLower`). The
one thing to know of the state is that the quote of an open value is no letter.
-/

namespace MixedMarkup

open Cursor Text

namespace Markup

variable {c d : Cursor} {s : State} {text left : List Char}

/-- A text in which the html tokenizer meets no letters that it tells apart
by case. -/
structure CaseFree (text : List Char) : Prop where
  noMarkedSection : ¬ "<![".toList <:+: text
  noNumber : ¬ "&#".toList <:+: text

theorem CaseFree.of_infix (h : CaseFree text) (hleft : left <:+: text) : CaseFree left :=
  ⟨fun hin => h.noMarkedSection (hin.trans hleft), fun hin => h.noNumber (hin.trans hleft)⟩

/-- The quote of an open value is no letter. -/
def State.QuotesPlainly (s : State) : Prop := ∀ quote, s.zone = .value quote → quote.isAlpha = false

/-! ## The lexical layer -/

/-- The same piece of the line in lower case. -/
def Piece.lower (p : Piece) : Piece := { p with cursor := p.cursor.lower }

theorem inVerbatim_lower (v : Verbatim) (c : Cursor) (s : State) :
    inVerbatim v c.lower s = (inVerbatim v c s).lower := by
  have hmark : ∀ x ∈ v.terminator, x.isAlpha = false := by cases v <;> decide
  simp only [inVerbatim, rest_lower, Scan.through_map_toLower hmark, read_lower]
  rfl

theorem inDoctype_lower (c : Cursor) (s : State) :
    inDoctype c.lower s = (inDoctype c s).lower := by
  have hmark : ∀ x ∈ ['>'], x.isAlpha = false := by decide
  simp only [inDoctype, rest_lower, Scan.through_map_toLower hmark, read_lower]
  rfl

theorem inValue_lower {quote : Char} (h : quote.isAlpha = false) (c : Cursor) (s : State) :
    inValue quote c.lower s = (inValue quote c s).lower := by
  have hmark : ∀ x ∈ [quote], x.isAlpha = false := by simpa using h
  simp only [inValue, rest_lower, Scan.through_map_toLower hmark, read_lower]
  rfl

/-- An entity that is no number. -/
theorem inEntity_lower (h : c.readChar? '#' = none) (s : State) :
    inEntity c.lower s = (inEntity c s).lower := by
  have hbody : entityBody c = (isEntityChar, c) := by simp only [entityBody, h]
  have hbody' : entityBody c.lower = (isEntityChar, c.lower) := by
    simp only [entityBody, readChar?_lower '#' (by decide), h, Option.map_none]
  simp only [inEntity, hbody, hbody', readWhile?_lower isEntityChar_toLower]
  cases c.readWhile? isEntityChar with
  | none => rfl
  | some d =>
    simp only [Option.map_some, readChar?_lower ';' (by decide)]
    cases d.readChar? ';' <;> rfl

/-- A declaration that is no marked section. -/
theorem inDeclaration_lower (h : c.readChar? '[' = none) (s : State) :
    inDeclaration c.lower s = (inDeclaration c s).lower := by
  have hdashes : ∀ x ∈ "--".toList, x.isAlpha = false := by decide
  simp only [inDeclaration, readChar?_lower '[' (by decide), h, Option.map_none,
    readLiteral?_lower hdashes, readLiteralAnyCase?_lower]
  cases c.readLiteral? "--".toList with
  | some d => exact inVerbatim_lower _ d s
  | none =>
    simp only [Option.map_none]
    cases c.readLiteralAnyCase? "DOCTYPE".toList with
    | some d => exact inDoctype_lower d s
    | none => rfl

/-- Where the next character is another one there is none to read. -/
theorem readChar?_eq_none {ch : Char} (h : ¬ [ch] <+: c.rest) : c.readChar? ch = none := by
  cases hread : c.readChar? ch with
  | none => rfl
  | some d => exact absurd ⟨d.rest, (took_readChar? hread).rest.symm⟩ h

theorem inDelimiter_lower (h : ¬ "![".toList <+: c.rest) (s : State) :
    inDelimiter c.lower s = (inDelimiter c s).lower := by
  simp only [inDelimiter, readChar?_lower '!' (by decide),
    readChar?_lower '?' (by decide), readChar?_lower '/' (by decide)]
  cases hbang : c.readChar? '!' with
  | some d =>
    refine inDeclaration_lower (readChar?_eq_none fun hbracket => h ?_) s
    have hrest : c.rest = '!' :: d.rest := (took_readChar? hbang).rest
    obtain ⟨after, hafter⟩ := hbracket
    exact ⟨after, by rw [hrest, ← hafter]; rfl⟩
  | none =>
    cases c.readChar? '?' with
    | some d => exact inVerbatim_lower _ d s
    | none => cases c.readChar? '/' <;> rfl

theorem inText_lower (h : CaseFree c.rest) (s : State) :
    inText c.lower s = (inText c s).lower := by
  have hplain : CaseBlind fun ch => ch != '&' && ch != '<' :=
    (beq_toLower (by decide)).not.and (beq_toLower (by decide)).not
  cases hnext : c.next? with
  | none => simp only [inText, next?_lower, hnext, Option.map_none]; rfl
  | some r =>
    obtain ⟨ch, d⟩ := r
    have hrest : c.rest = ch :: d.rest := (took_next? hnext).rest
    by_cases hlt : ch = '<'
    · subst hlt
      have hsmall : '<'.toLower = '<' := by decide
      simp only [inText, next?_lower, hnext, Option.map_some, hsmall]
      refine inDelimiter_lower (fun hbang => h.noMarkedSection ?_) s
      obtain ⟨after, hafter⟩ := hbang
      exact ⟨[], after, by rw [hrest, ← hafter]; rfl⟩
    by_cases hamp : ch = '&'
    · subst hamp
      have hsmall : '&'.toLower = '&' := by decide
      simp only [inText, next?_lower, hnext, Option.map_some, hsmall]
      refine inEntity_lower (readChar?_eq_none fun hnumber => h.noNumber ?_) s
      obtain ⟨after, hafter⟩ := hnumber
      exact ⟨[], after, by rw [hrest, ← hafter]; rfl⟩
    · have hlt' : ¬ ch.toLower = '<' := (toLower_eq_iff (by decide)).not.mpr hlt
      have hamp' : ¬ ch.toLower = '&' := (toLower_eq_iff (by decide)).not.mpr hamp
      simp only [inText, next?_lower, hnext, Option.map_some, skip_lower hplain]
      rfl

theorem trailingSlashes_map_toLower (text : List Char) :
    trailingSlashes (text.map Char.toLower) = trailingSlashes text := by
  rw [trailingSlashes, ← List.map_reverse, takeWhile_map_toLower (beq_toLower (by decide)),
    List.length_map, trailingSlashes]

theorem inWord_lower (c : Cursor) : inWord c.lower = (inWord c).lower := by
  simp only [inWord, skip_lower isWordChar_toLower, token_lower, ← List.map_tail,
    trailingSlashes_map_toLower, unread_lower]

theorem inTag_lower (c : Cursor) (s : State) : inTag c.lower s = (inTag c s).lower := by
  cases hnext : c.next? with
  | none => simp only [inTag, next?_lower, hnext, Option.map_none]; rfl
  | some r =>
    obtain ⟨ch, d⟩ := r
    have hmark : ∀ mark : Char, mark.isAlpha = false → (ch.toLower == mark) = (ch == mark) :=
      fun mark h => beq_toLower h ch
    have hpeek : (d.lower.peek? == some '>') = (d.peek? == some '>') := by
      rw [peek?_lower]
      cases d.peek? with
      | none => rfl
      | some x => exact (beq_toLower (by decide) : CaseBlind (· == '>')) x
    simp only [inTag, next?_lower, hnext, Option.map_some, hmark '>' (by decide),
      hmark '=' (by decide), hmark '<' (by decide), hmark '\x22' (by decide),
      hmark '\x27' (by decide), hmark '/' (by decide), hpeek, read_lower, inWord_lower,
      column_lower]
    split
    · rfl
    split
    · rfl
    split
    · rfl
    split
    · rename_i hquote
      have hsame : ch.toLower = ch ∧ ch.isAlpha = false := by
        rcases (Bool.or_eq_true ..).mp hquote with h | h
        · rw [beq_iff_eq.mp h]
          decide
        · rw [beq_iff_eq.mp h]
          decide
      rw [hsame.1]
      exact inValue_lower hsame.2 d _
    split <;> rfl

theorem readPiece_lower (hs : s.QuotesPlainly) (h : CaseFree c.rest) :
    readPiece c.lower s = (readPiece c s).lower := by
  unfold readPiece
  cases hzone : s.zone with
  | text => exact inText_lower h s
  | tag => exact inTag_lower c s
  | value quote => exact inValue_lower (hs quote hzone) c s
  | verbatim v => exact inVerbatim_lower v c s
  | doctype => exact inDoctype_lower c s

/-! ## Tokens -/

theorem elementName_map_toLower (spelling : List Char) :
    Flavour.html.elementName (spelling.map Char.toLower) = Flavour.html.elementName spelling := by
  rw [Flavour.elementName, map_toLower_map_toLower, Flavour.elementName]

/-- The tag layer reads names without their case. -/
theorem step_lower (l : Lexeme) (c : Cursor) (s : State) :
    Flavour.html.step l c.lower s = Flavour.html.step l c s := by
  simp only [Flavour.step, column_lower, token_lower, elementName_map_toLower]

theorem enter_lower (c : Cursor) (s : State) : Setup.enter c.lower s = Setup.enter c s := by
  simp only [Setup.enter, atStart_lower, indentation_lower]

/-- The part of a value on a line leaves it open with the same quote. -/
theorem quote_inValue {quote quote' : Char} (h : (inValue quote c s).state.zone = .value quote') :
    quote' = quote := by
  simp only [inValue] at h
  split at h <;> simp_all

/-- A tag opens values with the two quotes. -/
theorem quote_inTag {quote : Char} (hzone : s.zone = .tag)
    (h : (inTag c s).state.zone = .value quote) : quote.isAlpha = false := by
  revert h
  unfold inTag
  split
  · simp [hzone]
  rename_i ch d _
  split
  · simp
  split
  · simp [hzone]
  split
  · simp
  split
  · rename_i hquote
    intro h
    obtain rfl := quote_inValue h
    rcases (Bool.or_eq_true ..).mp hquote with h | h
    · rw [beq_iff_eq.mp h]
      decide
    · rw [beq_iff_eq.mp h]
      decide
  split
  · simp
  · simp [hzone]

/-- A value is open after a piece of a tag only, and its quote was read as one
there or it was open before. -/
theorem quotesPlainly_readPiece (hc : c.token = []) (hrest : c.rest ≠ []) (hs : s.QuotesPlainly) :
    (readPiece c s).state.QuotesPlainly := by
  intro quote hvalue
  by_cases hin : s.zone.InTag
  · unfold readPiece at hvalue
    cases hzone : s.zone with
    | text | verbatim _ | doctype => simp [hzone, Zone.InTag] at hin
    | tag =>
      rw [hzone] at hvalue
      exact quote_inTag hzone hvalue
    | value quote' =>
      rw [hzone] at hvalue
      rw [quote_inValue hvalue]
      exact hs _ hzone
  · cases fits_readPiece (s := s) hc hrest with
    | givesUp _ hgives => simp [hgives.1, Zone.InTag] at hin
    | aside _ haside => exact absurd (by simp [hvalue, Zone.InTag]) haside.zone
    | @lexeme l _ _ hjoins _ =>
      -- outside tags there are delimiters only, which lead into one
      have hdelimiter : l = .openTag ∨ l = .closeTag := by
        by_contra hother
        exact hin (hjoins.inTag_before (fun h => hother (.inl h)) fun h => hother (.inr h))
      rcases hdelimiter with rfl | rfl
      · simp [hjoins.2.1] at hvalue
      · simp [hjoins.2.1] at hvalue

theorem Setup.token_lower (m : Setup) (hflavour : m.flavour = .html) (hc : c.token = [])
    (hrest : c.rest ≠ []) (hs : s.QuotesPlainly) (h : CaseFree c.rest) :
    m.token c.lower s = (m.token c s).lower ∧ (m.token c s).state.QuotesPlainly := by
  have hs' : (enter c s).QuotesPlainly := hs
  simp only [token, enter_lower, readBlanks?_lower]
  cases c.readBlanks? with
  | some d => exact ⟨rfl, hs⟩
  | none =>
    simp only [Option.map_none, readPiece_lower hs' h, hflavour]
    have hquote := quotesPlainly_readPiece hc hrest hs'
    cases hlexeme : (readPiece c (enter c s)).lexeme with
    | none =>
      simp only [Piece.lower, hlexeme]
      exact ⟨rfl, hquote⟩
    | some l =>
      simp only [Piece.lower, hlexeme, step_lower]
      refine ⟨rfl, fun quote hzone => hquote quote ?_⟩
      rwa [Flavour.zone_step] at hzone

/-- **The html tokenizer reads in lower case what it reads.** -/
theorem html_readsLower (o : Options) :
    (html o).ReadsLower (html o).toTokenizer CaseFree State.QuotesPlainly where
  grammar _ := rfl
  consumes := (Setup.ofOptions .html o).tokenizer_consumes
  suffix h hleft := h.of_infix hleft.isInfix
  token _ _ hc hrest h hs := (Setup.ofOptions .html o).token_lower rfl hc hrest hs h

theorem quotesPlainly_initial (baseIndent : Nat) : (State.initial baseIndent).QuotesPlainly := by
  intro quote h
  simp [State.initial] at h

end Markup

end MixedMarkup
