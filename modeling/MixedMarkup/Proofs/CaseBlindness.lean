import MixedMarkup.Proofs.LoweredMarkup
import MixedMarkup.Proofs.LoweredRegions
import MixedMarkup.Proofs.RegionIndependence
import Mathlib.Data.List.Basic
/-!
# Documents — html is case-insensitive

Put in lower case, a document without marked sections and without numbered
entities is the same html: the html tokenizer makes the same spans, and a
composite with the default script types gives every byte to the same grammar.
For the composite two steps lead there. A region's own tokenizer does tell
capitals from small letters, but it can be taken along: asked to read every
text as if it were in lower case (`Tokenizer.inLowerCase`), it makes of the
document the tokens that it makes of its lower case form, so the composite
does (`Composite.html_readsLower`). And which tokenizers are embedded does not
matter for the regions, whether they read in lower case or not.
-/

namespace MixedMarkup

open Cursor Text

namespace Tokenizer

variable {σ : Type} {t : Tokenizer σ} {c : Cursor} {s : σ}

/-- The tokenizer that reads a text as if it were in lower case. -/
def inLowerCase (t : Tokenizer σ) : Tokenizer σ :=
  { t with
    token := fun c s =>
      let r := t.token c.lower s
      { r with cursor := c.read (c.rest.length - r.cursor.rest.length) } }

theorem inLowerCase_consumes (ht : t.Consumes) : t.inLowerCase.Consumes := by
  intro c s hc hrest
  have hadv := (ht c.lower s (by simp [hc]) (by simpa using hrest)).rest_lt
  refine advances_read ?_ hrest
  rw [rest_lower, List.length_map] at hadv
  omega

/-- **Its tokens** are those of the text in lower case. -/
theorem token_inLowerCase (ht : t.Consumes) (hc : c.token = []) (hrest : c.rest ≠ []) :
    t.token c.lower s = (t.inLowerCase.token c s).lower := by
  obtain ⟨text, -, htook⟩ := ht c.lower s (by simp [hc]) (by simpa using hrest)
  have hcursor : (t.token c.lower s).cursor =
      (c.read (c.rest.length - (t.token c.lower s).cursor.rest.length)).lower := by
    have hlength := htook.length
    rw [rest_lower, List.length_map] at hlength
    have hwidth : c.rest.length - (t.token c.lower s).cursor.rest.length = text.length := by omega
    rw [hwidth, ← read_lower]
    exact htook.eq_read
  exact congrArg (Step.mk _ · _) hcursor

end Tokenizer

namespace Mixed

namespace Composite

variable {η σ κ φ : Type} (m : Composite η σ κ φ)

/-- The composite whose regions are read as if they were in lower case. -/
def inLowerCase : Composite η σ κ φ :=
  { m with
    script := m.script.inLowerCase
    style := m.style.inLowerCase
    fallback := m.fallback.inLowerCase }

@[simp] theorem host_inLowerCase : m.inLowerCase.host = m.host := rfl

@[simp] theorem types_inLowerCase : m.inLowerCase.types = m.types := rfl

variable {m} {c : Cursor} {r : Region σ κ}

theorem inLowerCase_embedsConsuming (hm : m.EmbedsConsuming) : m.inLowerCase.EmbedsConsuming :=
  ⟨Tokenizer.inLowerCase_consumes hm.script, Tokenizer.inLowerCase_consumes hm.style,
    Tokenizer.inLowerCase_consumes hm.fallback⟩

/-- A token of a region. -/
theorem regionToken_lower (hm : m.EmbedsConsuming) (hc : c.token = []) (hrest : c.rest ≠ [])
    (r : Region σ κ) : m.regionToken c.lower r = (m.inLowerCase.regionToken c r).lower := by
  cases r with
  | script s =>
    exact congrArg (Step.map Region.script) (Tokenizer.token_inLowerCase hm.script hc hrest)
  | style s =>
    exact congrArg (Step.map Region.style) (Tokenizer.token_inLowerCase hm.style hc hrest)
  | unknown =>
    exact congrArg (Step.map fun _ => Region.unknown)
      (Tokenizer.token_inLowerCase hm.fallback hc hrest)

/-- The tag of an element opens the same region in lower case. -/
theorem regionOf?_lower (htypes : m.types.IgnoreCase) (element : String) (line : List Char)
    (host : η) : m.regionOf? element (line.map Char.toLower) host =
      m.inLowerCase.regionOf? element line host := by
  simp only [regionOf?, TypePatterns.kindOnLine_map_toLower htypes]
  rfl

/-- A token of the host. -/
theorem hostToken_lower (htypes : m.types.IgnoreCase) {host : η}
    (h : m.host.token c.lower host = (m.host.token c host).lower) :
    m.hostToken c.lower host = (m.inLowerCase.hostToken c host).lower := by
  simp only [hostToken, h, Step.lower, line_lower, regionOf?_lower htypes]
  rfl

section Html

variable (o : Options) {types : TypePatterns}

/-- **The html composite in lower case** makes the tokens that it makes with
its regions read as if they were. -/
theorem html_readsLower (htypes : types.IgnoreCase) :
    (html o types).tokenizer.ReadsLower (html o types).inLowerCase.tokenizer Markup.CaseFree
      (fun s => s.host.QuotesPlainly) where
  grammar s := by cases hlast : s.last <;> simp only [tokenizer, grammarName, hlast] <;> rfl
  consumes := tokenizer_consumes (Markup.Setup.ofOptions .html o).tokenizer_consumes
    (inLowerCase_embedsConsuming (html_embedsConsuming o types))
  suffix h hleft := h.of_infix hleft.isInfix
  token c s hc hrest h hs := by
    obtain ⟨hmarkup, hs'⟩ := (Markup.html_readsLower o).token c s.host hc hrest h hs
    have hhost : (html o types).hostToken c.lower s.host =
        ((html o types).inLowerCase.hostToken c s.host).lower := hostToken_lower htypes hmarkup
    simp only [tokenizer, token]
    cases s.region with
    | none => exact ⟨hhost, hs'⟩
    | some r =>
      simp only [rest_lower, EmbeddingElement.closesAt_map_toLower]
      split
      · exact ⟨hhost, hs'⟩
      · rw [regionToken_lower (html_embedsConsuming o types) hc hrest]
        refine ⟨?_, hs⟩
        simp only [Step.lower, EmbeddingElement.trim_lower]

end Html

section Documents

variable {m' : Composite η σ κ φ} {calls : List (Call (State η σ κ))}
variable {ok : List Char → Prop} {inv : State η σ κ → Prop}

theorem labels_lower
    (h : ∀ k ∈ calls, m.tokenizer.stepOf k.lower = (m'.tokenizer.stepOf k).lower) :
    m.labels (calls.map Call.lower) = m'.labels calls := by
  rw [labels, labels, List.flatMap_map]
  refine List.flatMap_congr fun k hk => ?_
  simp only [Tokenizer.textOf, h k hk, Step.lower, token_lower, byteSize_map_toLower]

theorem hostSpans_lower (hreads : m.tokenizer.ReadsLower m'.tokenizer ok inv)
    (h : ∀ k ∈ calls, m.tokenizer.stepOf k.lower = (m'.tokenizer.stepOf k).lower) (index : Nat) :
    m.hostSpans index (calls.map Call.lower) = (m'.hostSpans index calls).map Span.lower := by
  induction calls with
  | nil => rfl
  | cons k calls ih =>
    have htail := ih fun k hk => h k (List.mem_cons_of_mem _ hk)
    have hk := h k (List.mem_cons_self ..)
    have hlast : (m.tokenizer.stepOf k.lower).state.last = (m'.tokenizer.stepOf k).state.last := by
      rw [hk]
      rfl
    simp only [hostSpans] at htail ⊢
    rw [List.map_cons, List.filter_cons, List.filter_cons, hlast]
    split
    · rw [List.map_cons, List.map_cons, List.map_cons, htail, hreads.callSpan hk]
    · exact htail

/-- **Lines in lower case** are of the same grammars and have the same spans of
the host. -/
theorem labelsOn_lower (hreads : m.tokenizer.ReadsLower m'.tokenizer ok inv)
    {lines : List (List Char)} (hok : ∀ line ∈ lines, ok line) (index : Nat) {s : State η σ κ}
    (hs : inv s) :
    m.labelsOn index (lines.map (·.map Char.toLower)) s = m'.labelsOn index lines s ∧
      m.hostSpansOn index (lines.map (·.map Char.toLower)) s =
        (m'.hostSpansOn index lines s).map Span.lower := by
  obtain ⟨-, hcalls, hsteps⟩ := hreads.readLines_lower hok index s hs
  constructor
  · rw [labelsOn, labelsOn, hcalls, List.map_map]
    exact List.map_congr_left fun calls hmem => labels_lower (hsteps calls hmem)
  · rw [hostSpansOn, hostSpansOn, hcalls, List.zipIdx_map, List.flatMap_map, List.map_flatMap]
    refine List.flatMap_congr fun p hp => ?_
    exact hostSpans_lower hreads (hsteps p.1 (List.fst_mem_of_mem_zipIdx hp)) p.2

end Documents

end Composite

/-- The default options have the standard patterns. -/
theorem TypePatterns.ofOptions_default {o : Options}
    (hscript : o.scriptTypes = ({} : Options).scriptTypes)
    (htemplates : o.templateTypes = ({} : Options).templateTypes) :
    ofOptions o = .ok .standard := by
  have hdefault : ofOptions o = ofOptions {} := by simp only [ofOptions, hscript, htemplates]
  have hok : (ofOptions {}).isOk = true := by decide +kernel
  refine hdefault.trans ?_
  unfold standard
  cases hread : ofOptions {} with
  | error failure => simp [hread, Except.toBool] at hok
  | ok types => rfl

end Mixed

open Mixed

/-- **Html is case-insensitive.** Take a source without `<![` and without `&#`,
and the same source with the letters of ASCII in lower case. From a start at
any column, and under all options, the html tokenizer fails on neither, makes
spans of the one that are those of the other but for their texts, and ends in
the same state. And under all options that have the default script types, the
composite of html with its regions fails on neither, gives every byte of the
one to the grammar that it gives the byte of the other to, and its host makes
the same spans but for their texts. -/
theorem html_ignores_case {source : String} (h : Markup.CaseFree source.toList) (o : Options)
    (baseIndent : Nat) :
    (let reading := (Markup.html o).readLines 0 (linesOf source) ((Markup.html o).start baseIndent)
      let lowered :=
        (Markup.html o).readLines 0 (linesOf source.toLower) ((Markup.html o).start baseIndent)
      reading.failure = none ∧ lowered.failure = none ∧
        lowered.spans = reading.spans.map Span.lower ∧ lowered.state = reading.state) ∧
      (o.scriptTypes = ({} : Options).scriptTypes → o.templateTypes = ({} : Options).templateTypes →
        ∃ m, htmlOfOptions o = .ok m ∧
          (m.tokenizer.readLines 0 (linesOf source) (m.start baseIndent)).failure = none ∧
          (m.tokenizer.readLines 0 (linesOf source.toLower) (m.start baseIndent)).failure = none ∧
          m.labelsOn 0 (linesOf source.toLower) (m.start baseIndent) =
            m.labelsOn 0 (linesOf source) (m.start baseIndent) ∧
          (m.labelsOn 0 (linesOf source) (m.start baseIndent)).map List.length =
            (linesOf source).map byteSize ∧
          m.hostSpansOn 0 (linesOf source.toLower) (m.start baseIndent) =
            (m.hostSpansOn 0 (linesOf source) (m.start baseIndent)).map Span.lower) := by
  have hok : ∀ line ∈ linesOf source, Markup.CaseFree line :=
    fun line hline => h.of_infix (infix_of_mem_linesOf hline)
  rw [linesOf_toLower]
  constructor
  · have hconsumes : (Markup.html o).Consumes :=
      (Markup.Setup.ofOptions .html o).tokenizer_consumes
    obtain ⟨hread, -⟩ := (Markup.html_readsLower o).readLines_lower hok 0
      ((Markup.html o).start baseIndent) (Markup.quotesPlainly_initial baseIndent)
    refine ⟨(hconsumes.readLines_line _ 0 _).1, (hconsumes.readLines_line _ 0 _).1, ?_, ?_⟩
    · rw [hread]
      rfl
    · rw [hread]
      rfl
  · intro hscript htemplates
    have htypes := TypePatterns.ofOptions_default hscript htemplates
    have hconsumes := html_consumes o .standard
    have hm := Composite.html_embedsConsuming o .standard
    refine ⟨html o .standard, by rw [htmlOfOptions, htypes]; rfl,
      (hconsumes.readLines_line _ 0 _).1, (hconsumes.readLines_line _ 0 _).1, ?_⟩
    -- the regions of the source stay where they are when they are read in lower case
    obtain ⟨hlabels, hlength, hspans, -⟩ := Composite.sameShape_readLines
      (html o .standard).host_inLowerCase.symm (html o .standard).types_inLowerCase.symm
      (Markup.Setup.ofOptions .html o).tokenizer_consumes hm
      (Composite.inLowerCase_embedsConsuming hm) (linesOf source) 0
      ((html o .standard).start baseIndent) _ ⟨rfl, rfl⟩
    obtain ⟨hlabels', hspans'⟩ := Composite.labelsOn_lower
      (Composite.html_readsLower o TypePatterns.ignoreCase_standard) hok 0
      (s := (html o .standard).start baseIndent) (Markup.quotesPlainly_initial baseIndent)
    exact ⟨hlabels'.trans hlabels.symm, hlength, hspans'.trans (congrArg _ hspans.symm)⟩

/-- Scripts of two types, in capitals and small letters. -/
theorem html_ignores_case_of_scripts :
    let source := "<SCRIPT Type='Text/JavaScript'>'A</Script>\n<sCript TYPE='X'>B</SCRIPT>&AMP;"
    Markup.CaseFree source.toList ∧ htmlOfOptions {} = .ok (html {} .standard) ∧
      ((Markup.html {}).readLines 0 (linesOf source.toLower) ((Markup.html {}).start 0)).state =
        ((Markup.html {}).readLines 0 (linesOf source) ((Markup.html {}).start 0)).state ∧
      (html {} .standard).labelsOn 0 (linesOf source.toLower) ((html {} .standard).start 0) =
        (html {} .standard).labelsOn 0 (linesOf source) ((html {} .standard).start 0) := by
  intro source
  have hfree : Markup.CaseFree source.toList := ⟨by decide +kernel, by decide +kernel⟩
  have hm : htmlOfOptions {} = .ok (html {} .standard) := by
    rw [htmlOfOptions, TypePatterns.ofOptions_default rfl rfl]
    rfl
  obtain ⟨⟨-, -, -, hstate⟩, hmixed⟩ := html_ignores_case hfree {} 0
  obtain ⟨m, hm', -, -, hlabels, -⟩ := hmixed rfl rfl
  obtain rfl := Except.ok.inj (hm.symm.trans hm')
  exact ⟨hfree, hm, hstate, hlabels⟩

end MixedMarkup
