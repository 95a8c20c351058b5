import MixedMarkup.Proofs.StateComparison
/-!
# Documents — indentation leaves no trace in the spans

Columns are written into the states of all tokenizers: the indentation of
the line, the column of a tag or of a value, the column at which a region
was opened. They come from the tab stops, from the column that the reading
started at and, in a region, from the options of the host. None of them
comes back out as a span. The relation between two readings is that of
alike states: it holds at the start whatever the columns (`initial_alike`),
every token of every tokenizer keeps it (`ReadsAlike`), and from there two
readings of the same lines make the same spans
(`indentation_never_highlighted`).
-/

namespace MixedMarkup

namespace Tokenizer

variable {σ : Type} {t t' : Tokenizer σ} {R : σ → σ → Prop}

/-- Two tokenizers make the same spans of all lines, and fail alike where
they fail, from starts at any two columns and with tab stops of any two
widths. -/
def SameHighlighting (t t' : Tokenizer σ) : Prop :=
  ∀ (baseIndent baseIndent' tabSize tabSize' index : Nat) (lines : List (List Char)),
    (t'.readLinesWith tabSize' index lines (t'.start baseIndent')).spans =
        (t.readLinesWith tabSize index lines (t.start baseIndent)).spans ∧
      (t'.readLinesWith tabSize' index lines (t'.start baseIndent')).failure =
        (t.readLinesWith tabSize index lines (t.start baseIndent)).failure

/-- So do tokenizers that read alike from all starts. -/
theorem ReadsAlike.sameHighlighting (ht : t.ReadsAlike t' R)
    (hstart : ∀ n n', R (t.start n) (t'.start n')) : t.SameHighlighting t' := by
  intro baseIndent baseIndent' tabSize tabSize' index lines
  exact ht.readLinesWith tabSize tabSize' lines index _ _ (hstart baseIndent baseIndent')

end Tokenizer

/-! ## The tokenizers of the library -/

namespace Markup

theorem State.initial_alike (n n' : Nat) : (State.initial n).Alike (.initial n') :=
  ⟨rfl, rfl, fun _ => rfl, rfl⟩

/-- Markup of one flavour is highlighted the same under all setups. -/
theorem Setup.sameHighlighting {m m' : Setup} (h : m'.flavour = m.flavour) :
    m.tokenizer.SameHighlighting m'.tokenizer.toTokenizer :=
  (readsAlike_of_flavour h).sameHighlighting State.initial_alike

end Markup

/-- Plain text has no states to tell apart. -/
theorem Plain.sameHighlighting : Plain.tokenizer.SameHighlighting Plain.tokenizer := by
  have halike : Plain.tokenizer.ReadsAlike Plain.tokenizer fun _ _ => True := by
    intro c tabSize s s' _ _ _
    exact ⟨rfl, rfl, rfl, trivial⟩
  exact halike.sameHighlighting fun _ _ => trivial

namespace Mixed

/-- Html with its regions is highlighted the same under options that lead
to the same script types. -/
theorem Composite.html_sameHighlighting (o o' : Options) (types : TypePatterns) :
    (html o types).tokenizer.SameHighlighting (html o' types).tokenizer :=
  (html_readsAlike o types).sameHighlighting fun n n' =>
    ⟨Markup.State.initial_alike n n', .none⟩

/-- Only the script types of the options are read as patterns. -/
theorem TypePatterns.ofOptions_congr {o o' : Options} (hscript : o'.scriptTypes = o.scriptTypes)
    (htemplates : o'.templateTypes = o.templateTypes) : ofOptions o' = ofOptions o := by
  simp only [ofOptions, hscript, htemplates]

end Mixed

open Mixed

/-- **Indentation is never highlighted.** Take two options that agree on the
script types and the template types, and may differ in how lines are
indented. Under both, html with its regions is refused for the same
malformed pattern or accepted, and then each of the tokenizers of the
library makes of every list of lines the same spans under the one and under
the other: the same offsets, texts, styles and grammars, from starts at any
two columns and with tab stops of any two widths. For html with its regions
this is so whatever the patterns are, and not only for those read from the
options. -/
theorem indentation_never_highlighted {o o' : Options}
    (hscript : o'.scriptTypes = o.scriptTypes) (htemplates : o'.templateTypes = o.templateTypes) :
    (∀ failure, htmlOfOptions o = .error failure → htmlOfOptions o' = .error failure) ∧
      (∀ m, htmlOfOptions o = .ok m →
        ∃ m', htmlOfOptions o' = .ok m' ∧ m.tokenizer.SameHighlighting m'.tokenizer) ∧
      (∀ types, (html o types).tokenizer.SameHighlighting (html o' types).tokenizer) ∧
      (Markup.html o).SameHighlighting (Markup.html o').toTokenizer ∧
      (Markup.xml o).SameHighlighting (Markup.xml o').toTokenizer ∧
      (Script.tokenizer o).SameHighlighting (Script.tokenizer o') ∧
      (Stylesheet.tokenizer o).SameHighlighting (Stylesheet.tokenizer o') ∧
      Plain.tokenizer.SameHighlighting Plain.tokenizer := by
  have htypes := TypePatterns.ofOptions_congr hscript htemplates
  refine ⟨?_, ?_, Composite.html_sameHighlighting o o',
    Markup.Setup.sameHighlighting rfl, Markup.Setup.sameHighlighting rfl,
    (Script.readsAlike o o').sameHighlighting Script.initial_alike,
    (Stylesheet.readsAlike o o').sameHighlighting Stylesheet.initial_alike,
    Plain.sameHighlighting⟩
  · intro failure h
    unfold htmlOfOptions at h ⊢
    rw [htypes]
    cases hread : TypePatterns.ofOptions o with
    | error failure' => simpa [hread, Except.map] using h
    | ok types => simp [hread, Except.map] at h
  · intro m h
    unfold htmlOfOptions at h ⊢
    rw [htypes]
    cases hread : TypePatterns.ofOptions o with
    | error failure => simp [hread, Except.map] at h
    | ok types =>
      simp only [hread, Except.map, Except.ok.injEq] at h
      exact ⟨html o' types, rfl, h ▸ Composite.html_sameHighlighting o o' types⟩

/-- Options under which lines are indented widely. -/
def Options.wide : Options := { indentUnit := 8, tagLineFactor := 3, tagLinePastName := false }

/-- A wide indentation, narrow tab stops and a start in the middle of the
page make no difference, though they show in the states. -/
theorem indentation_never_highlighted_wide :
    htmlOfOptions {} = .ok (html {} .standard) ∧
      htmlOfOptions .wide = .ok (html .wide .standard) ∧
      (∀ lines, ((html .wide .standard).tokenizer.readLinesWith 1 0 lines
          ((html .wide .standard).start 40)).spans =
        ((html {} .standard).tokenizer.readLinesWith 4 0 lines
          ((html {} .standard).start 0)).spans) ∧
      ((html .wide .standard).tokenizer.readLinesWith 1 0 ["\t<script>".toList]
          ((html .wide .standard).start 40)).state ≠
        ((html {} .standard).tokenizer.readLinesWith 4 0 ["\t<script>".toList]
          ((html {} .standard).start 0)).state := by
  have hread : TypePatterns.ofOptions {} = .ok .standard := by
    have hok : (TypePatterns.ofOptions {}).isOk = true := by decide +kernel
    unfold TypePatterns.standard
    cases h : TypePatterns.ofOptions {} with
    | error failure => simp [h, Except.toBool] at hok
    | ok types => rfl
  have hread' : TypePatterns.ofOptions .wide = .ok .standard := hread
  have hhtml : htmlOfOptions {} = .ok (html {} .standard) := by
    rw [htmlOfOptions, hread, Except.map]
  have hhtml' : htmlOfOptions .wide = .ok (html .wide .standard) := by
    rw [htmlOfOptions, hread', Except.map]
  have hscript : Options.wide.scriptTypes = ({} : Options).scriptTypes := rfl
  obtain ⟨-, hsame, -⟩ := indentation_never_highlighted hscript rfl
  obtain ⟨m', hm', hhighlight⟩ := hsame _ hhtml
  obtain rfl := Except.ok.inj (hhtml'.symm.trans hm')
  refine ⟨hhtml, hhtml', ?_, by decide +kernel⟩
  intro lines
  exact (hhighlight 0 40 4 1 0 lines).1

end MixedMarkup
