import MixedMarkup.Proofs.ImpliedEnds
import MixedMarkup.Proofs.TagTexts
import MixedMarkup.Proofs.TokensByLine
/-!
# Markup — constructs that hide their content

Comments, CDATA sections and processing instructions leave nothing in the
state but the indentation of the last line, whatever they contain
(`Setup.reads_verbatim`); in a composite they keep it in the host
(`Composite.reads_verbatim`). A value between quotes leaves the column of its
first quote, and the open elements as they were (`Setup.reads_value`). In each
of them the content may go over any number of lines, and may look like tags,
closing tags or the ends of the other constructs.
-/

namespace MixedMarkup

open Cursor Text

namespace Markup

variable {c : Cursor} {s : State} {pl : Place} {after : List Char}
variable {content below : List (List Char)}

/-- The state differs from `s` in the zone and the indentation of the line at
most, and reports nothing as opened. -/
def State.LeftIn (s : State) (zone : Zone) (s' : State) : Prop :=
  ∃ n, s' = { s with zone := zone, lineIndent := n, opened := false }

/-- So does the state at a token, in whatever zone the token leaves it. -/
theorem State.LeftIn.enter {zone : Zone} {s' : State} (h : s.LeftIn zone s') (c : Cursor)
    (zone' : Zone) : s.LeftIn zone' { Setup.enter c s' with zone := zone' } := by
  obtain ⟨n, rfl⟩ := h
  exact ⟨_, rfl⟩

/-- The state in a value that began at the column, or behind it. -/
def State.valued (s : State) (column : Nat) (zone : Zone) : State :=
  { s with zone := zone, stage := .afterValue, valueColumn := column, opened := false }

namespace Setup

variable (m : Setup)

/-- **Within a verbatim construct** the state is what it was before it, but
for the zone and the indentation. -/
theorem scansFor_verbatim (v : Verbatim) (s : State) :
    m.tokenizer.ScansFor (·.opened = false) v.terminator v.style (s.LeftIn (.verbatim v))
      (s.LeftIn .text) where
  endMark := isEndMark_terminator v
  blanks := by
    intro c s' hs' _ hblank
    refine m.callTakes_blanks rfl ?_ hs' hblank
    rintro c _ ⟨n, rfl⟩
    exact ⟨_, rfl⟩
  scans := by
    intro c s' hs' _ hrest
    obtain ⟨x, hpeek, hx⟩ := hrest
    have hpiece : readPiece c (enter c s') = inVerbatim v c (enter c s') := by
      obtain ⟨n, rfl⟩ := hs'
      rfl
    exact m.callScans_verbatim v rfl (readBlanks?_of_peek? hpeek hx) (.refl c) hpiece
      (hs'.enter c _) (hs'.enter c _)
  inside := by
    rintro _ ⟨n, rfl⟩
    rfl
  behind := by
    rintro _ ⟨n, rfl⟩
    rfl

/-- **A verbatim construct** over lines without its terminator. -/
theorem reads_verbatim (v : Verbatim) (hzone : s.zone = .text)
    (hat : ConstructAt pl v.opener v.terminator content after below) :
    ∃ d n, m.tokenizer.Reads (·.opened = false) pl s
        (constructTokens v.style (bracketed v.opener v.terminator content)) ⟨d, below⟩
        { s with lineIndent := n, opened := false } ∧ d.rest = after := by
  obtain ⟨c, later⟩ := pl
  obtain ⟨text, hopener⟩ : ∃ text, v.opener = '<' :: text := by cases v <;> exact ⟨_, rfl⟩
  have hfirst (zone : Zone) : s.LeftIn zone { enter c.beginToken s with zone := zone } := ⟨_, rfl⟩
  have hscans (rest : List Char) (hrest : c.rest = v.opener ++ rest) :
      m.tokenizer.CallScans (· = some v.style) v.terminator (s.LeftIn (.verbatim v))
        (s.LeftIn .text) c.beginToken s v.opener rest := by
    have hpeek : c.beginToken.peek? = some '<' := by simp [peek?, hrest, hopener]
    obtain ⟨d, htook, rfl, hpiece⟩ :=
      readPiece_opener (c := c.beginToken) (s := enter c.beginToken s) v hzone hrest
    exact m.callScans_verbatim v rfl (readBlanks?_of_peek? hpeek (by decide)) htook hpiece
      (hfirst _) (hfirst _)
  obtain ⟨d, _, hreads, hd, n, rfl⟩ :=
    (m.scansFor_verbatim v s).reads hat (by simp [hopener]) hscans
  rw [← hzone] at hreads
  exact ⟨d, n, hreads, hd⟩

/-- A state in which a tag has its name does not take note of the lines. -/
theorem enter_of_named (hname : s.tagName.isSome = true) (c : Cursor) :
    enter c s = { s with opened := false } := by
  have hnone : s.tagName.isNone = false := by
    rw [← Option.not_isSome, hname]
    rfl
  simp [enter, hnone]

/-- **Within a value** the state depends on the one before it and on the
column of the value. -/
theorem scansFor_value {quote : Char} (hquote : quote = '\x22' ∨ quote = '\x27')
    (hname : s.tagName.isSome = true) (column : Nat) :
    m.tokenizer.ScansFor (·.opened = false) [quote] .string (· = s.valued column (.value quote))
      (· = s.valued column .tag) where
  endMark := isEndMark_quote hquote
  blanks := by
    intro c s' hs' _ hblank
    refine m.callTakes_blanks rfl ?_ hs' hblank
    rintro c _ rfl
    exact enter_of_named (s := s.valued column (.value quote)) hname c
  scans := by
    rintro c _ rfl _ ⟨x, hpeek, hx⟩
    have henter : enter c (s.valued column (.value quote)) = s.valued column (.value quote) :=
      enter_of_named (s := s.valued column (.value quote)) hname c
    have hpiece : readPiece c (enter c (s.valued column (.value quote))) =
        inValue quote c (s.valued column (.value quote)) := by
      rw [henter]
      rfl
    exact m.callScans_value rfl (readBlanks?_of_peek? hpeek hx) (.refl c) hpiece (.inr rfl) rfl rfl
  inside := by
    rintro _ rfl
    rfl
  behind := by
    rintro _ rfl
    rfl

/-- **A value between quotes** over lines without the quote. -/
theorem reads_value {quote : Char} (hquote : quote = '\x22' ∨ quote = '\x27')
    (hzone : s.zone = .tag) (hstage : s.stage = .value) (hname : s.tagName.isSome = true)
    (hat : ConstructAt pl [quote] [quote] content after below) :
    ∃ d, m.tokenizer.Reads (·.opened = false) pl s
        (constructTokens .string (bracketed [quote] [quote] content)) ⟨d, below⟩
        (s.valued pl.cursor.beginToken.column .tag) ∧ d.rest = after := by
  obtain ⟨c, later⟩ := pl
  have hblank : isBlank quote = false := (isEndMark_quote hquote).blanks quote (by simp)
  have hscans (rest : List Char) (hrest : c.rest = [quote] ++ rest) :
      m.tokenizer.CallScans (· = some .string) [quote]
        (· = s.valued c.beginToken.column (.value quote)) (· = s.valued c.beginToken.column .tag)
        c.beginToken s [quote] rest := by
    have hpeek : c.beginToken.peek? = some quote := by simp [peek?, hrest]
    have hpiece : readPiece c.beginToken (enter c.beginToken s) =
        inValue quote (c.beginToken.read 1)
          { s with opened := false, valueColumn := c.beginToken.column } := by
      rw [enter_of_named hname]
      exact readPiece_quote hquote hzone hpeek
    have hleft : (c.beginToken.read 1).rest = rest := by simp [Cursor.read, hrest]
    rw [← hleft]
    exact m.callScans_value rfl (readBlanks?_of_peek? hpeek hblank) (took_read_one hpeek) hpiece
      (.inl hstage) rfl rfl
  obtain ⟨d, _, hreads, hd, rfl⟩ :=
    (m.scansFor_value hquote hname c.beginToken.column).reads hat (by simp) hscans
  exact ⟨d, hreads, hd⟩

end Setup

end Markup

namespace Mixed

namespace Composite

variable {σ κ φ : Type} {m : Composite Markup.State σ κ φ} {setup : Markup.Setup}
variable {pl pl' : Place} {lines : List (List (List Char × Option Style))}

/-- Where the host opens nothing, the composite reads lines as it does. -/
theorem reads_of_host (hhost : m.host = setup.tokenizer) {host host' : Markup.State}
    (h : setup.tokenizer.Reads (·.opened = false) pl host lines pl' host') :
    m.tokenizer.Reads (fun s => s.last = .host ∧ s.active = .host) pl ⟨host, none, .host⟩ lines pl'
      ⟨host', none, .host⟩ := by
  induction h with
  | last hyields => exact .last (yields_of_host hhost hyields)
  | next hyields hd _ ih => exact .next (yields_of_host hhost hyields) hd ih

/-- **A verbatim construct keeps the composite in the host.** -/
theorem reads_verbatim (hhost : m.host = setup.tokenizer) (v : Markup.Verbatim)
    {s : State Markup.State σ κ} (hactive : s.active = .host) (hzone : s.host.zone = .text)
    {content below : List (List Char)} {after : List Char}
    (hat : ConstructAt pl v.opener v.terminator content after below) :
    ∃ d n, m.tokenizer.Reads (fun s => s.last = .host ∧ s.active = .host) pl s
        (constructTokens v.style (bracketed v.opener v.terminator content)) ⟨d, below⟩
        ⟨{ s.host with lineIndent := n, opened := false }, none, .host⟩ ∧ d.rest = after := by
  obtain ⟨d, n, hreads, hd⟩ := setup.reads_verbatim v hzone hat
  obtain ⟨first, more, hne, htokens⟩ :=
    exists_constructTokens_eq v.style v.opener v.terminator content
  rw [htokens] at hreads ⊢
  obtain ⟨host, region, last⟩ := s
  obtain rfl : region = none := State.active_eq_host_iff.mp hactive
  -- the first call is the host's, whoever made the token before it
  have htoken : m.tokenizer.token pl.cursor.beginToken ⟨host, none, last⟩ =
      m.tokenizer.token pl.cursor.beginToken ⟨host, none, .host⟩ := rfl
  exact ⟨d, n, .of_token_eq htoken hne (reads_of_host hhost hreads), hd⟩

/-- **Constructs hide their content.** Let the content be any number of lines
without the text that ends the construct.

A comment, a CDATA section or a processing instruction, met in text in either
flavour, has the construct's style in all of its tokens but the blanks that
its later lines begin with, and leaves the state as it was but for the
indentation of the line and the report of an opened element. In the html
composite all of these tokens are the host's, and no region is open after any
of them.

A value between quotes, met after an equals sign in a state that calls lead
to, is a string in the same tokens. It leaves a state that depends on the
state before it and on the column of the first quote, and not on the content;
the open elements are what they were. -/
theorem constructs_hide_content (f : Markup.Flavour) (o : Options) (types : TypePatterns)
    (pl : Place) (content below : List (List Char)) (after : List Char) :
    (∀ (v : Markup.Verbatim) (s : Markup.State), s.zone = .text →
        ConstructAt pl v.opener v.terminator content after below →
        ∃ d n, (Markup.Setup.ofOptions f o).tokenizer.Reads (·.opened = false) pl s
            (constructTokens v.style (bracketed v.opener v.terminator content)) ⟨d, below⟩
            { s with lineIndent := n, opened := false } ∧ d.rest = after) ∧
      (∀ (v : Markup.Verbatim) (s : State Markup.State Script.State Stylesheet.State),
        s.active = .host → s.host.zone = .text →
        ConstructAt pl v.opener v.terminator content after below →
        ∃ d n, (html o types).tokenizer.Reads (fun s => s.last = .host ∧ s.active = .host) pl s
            (constructTokens v.style (bracketed v.opener v.terminator content)) ⟨d, below⟩
            ⟨{ s.host with lineIndent := n, opened := false }, none, .host⟩ ∧ d.rest = after) ∧
      ∀ (quote : Char) (s : Markup.State), quote = '\x22' ∨ quote = '\x27' →
        (Markup.Setup.ofOptions f o).tokenizer.Reachable s → s.zone = .tag → s.stage = .value →
        ConstructAt pl [quote] [quote] content after below →
        ∃ d, (Markup.Setup.ofOptions f o).tokenizer.Reads (·.opened = false) pl s
            (constructTokens .string (bracketed [quote] [quote] content)) ⟨d, below⟩
            { s with
              zone := .tag
              stage := .afterValue
              valueColumn := pl.cursor.beginToken.column
              opened := false } ∧ d.rest = after := by
  refine ⟨?_, ?_, ?_⟩
  · intro v s hzone hat
    exact (Markup.Setup.ofOptions f o).reads_verbatim v hzone hat
  · intro v s hactive hzone hat
    have hhost : (html o types).host = (Markup.Setup.ofOptions .html o).tokenizer := rfl
    exact reads_verbatim hhost v hactive hzone hat
  · intro quote s hquote hreach hzone hstage hat
    have hnamed : s.stage.Named := by simp [hstage, Markup.Stage.Named]
    obtain ⟨name, hin⟩ := (Markup.Setup.ofOptions f o).settled_of_reachable hreach hnamed
    have hname : s.tagName.isSome = true := by simp [hin.tagName]
    exact (Markup.Setup.ofOptions f o).reads_value hquote hzone hstage hname hat

/-- Tags and the ends of other constructs, in a CDATA section of three lines,
in a comment of one, and in a value of two. -/
theorem constructs_hide_markup :
    (∃ index spans d n, (spans.map fun sp => (sp.line, sp.text, sp.style)) =
          [(0, "<![CDATA[<a", some .atom), (1, "  ", none), (1, "</b>-->", some .atom),
            (2, "]]>", some .atom)] ∧
        (Markup.xml {}).readOn 0
            ⟨.ofLine "<![CDATA[<a".toList, ["  </b>-->".toList, "]]>c".toList]⟩ (.initial 0) =
          { (Markup.xml {}).readOn index ⟨d, []⟩
              { Markup.State.initial 0 with lineIndent := n } with
            spans := spans ++ ((Markup.xml {}).readOn index ⟨d, []⟩
              { Markup.State.initial 0 with lineIndent := n }).spans } ∧
        d.rest = "c".toList) ∧
      (∃ d n, (html {} .standard).tokenizer.Reads (fun s => s.last = .host ∧ s.active = .host)
          ⟨.ofLine "<!--<script>-->x".toList, []⟩ ((html {} .standard).start 0)
          [[("<!--<script>-->".toList, some .comment)]] ⟨d, []⟩
          ⟨{ Markup.State.initial 0 with lineIndent := n }, none, .host⟩ ∧ d.rest = "x".toList) ∧
      (Markup.html {}).Reachable (Markup.stateAfter ["<p><a b="]) ∧
      ∃ d s', (Markup.html {}).Reads (·.opened = false)
          ⟨.ofLine "'</a>".toList, ["?>'>".toList]⟩ (Markup.stateAfter ["<p><a b="])
          [[("'</a>".toList, some .string)], [("?>'".toList, some .string)]] ⟨d, []⟩ s' ∧
        d.rest = ">".toList ∧ s'.context = [⟨"p", 0, true, false⟩] := by
  refine ⟨?_, ?_, .readLines (.start 0) 0 _, ?_⟩
  · obtain ⟨hverbatim, -, -⟩ := constructs_hide_content .xml {} .standard
      ⟨.ofLine "<![CDATA[<a".toList, ["  </b>-->".toList, "]]>c".toList]⟩
      ["<a".toList, "  </b>-->".toList, []] [] "c".toList
    obtain ⟨d, n, hreads, hd⟩ := hverbatim .cdata (.initial 0) rfl ⟨by decide, by decide⟩
    obtain ⟨index, spans, hspans, hread⟩ := hreads.readOn 0
    exact ⟨index, spans, d, n, hspans.trans (by decide), hread, hd⟩
  · obtain ⟨-, hhost, -⟩ := constructs_hide_content .html {} .standard
      ⟨.ofLine "<!--<script>-->x".toList, []⟩ ["<script>".toList] [] "x".toList
    obtain ⟨d, n, hreads, hd⟩ := hhost .comment ((html {} .standard).start 0) rfl rfl
      ⟨by decide, by decide⟩
    exact ⟨d, n, hreads, hd⟩
  · obtain ⟨-, -, hvalue⟩ := constructs_hide_content .html {} .standard
      ⟨.ofLine "'</a>".toList, ["?>'>".toList]⟩ ["</a>".toList, "?>".toList] [] ">".toList
    obtain ⟨d, hreads, hd⟩ := hvalue '\x27' (Markup.stateAfter ["<p><a b="]) (.inr rfl)
      (.readLines (.start 0) 0 _) (by decide +kernel) (by decide +kernel) ⟨by decide, by decide⟩
    exact ⟨d, _, hreads, hd, by decide +kernel⟩

end Composite

end Mixed

end MixedMarkup
