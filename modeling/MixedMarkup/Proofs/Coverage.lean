import MixedMarkup.Proofs.RegionExit
/-!
# Documents — every line is covered

The composite consumes where its parts do: in a region the token is
trimmed and keeps a character, and on a closing tag the call is the
host's. With the tokenizers of the library, which consume in every state,
no reading fails and every line is tiled by its spans.
-/

namespace MixedMarkup

namespace Mixed

namespace Composite

variable {η σ κ φ : Type} {m : Composite η σ κ φ}

/-- **A composite consumes if its tokenizers do.** -/
theorem tokenizer_consumes (hhost : m.host.Consumes) (hm : m.EmbedsConsuming) :
    m.tokenizer.Consumes := by
  intro c s hc hrest
  change c.Advances (m.token c s).cursor
  cases hr : s.region with
  | none =>
    rw [token, hr]
    exact hhost c s.host hc hrest
  | some r =>
    by_cases hcloses : r.element.Closes c.rest
    · rw [token_of_closes hr hcloses]
      exact hhost c s.host hc hrest
    · obtain ⟨kept, -, hne, htook, -⟩ := token_of_region hm hr hc hrest hcloses
      exact ⟨kept, hne, htook⟩

end Composite

/-- The html composite consumes, whatever its options. -/
theorem html_consumes (o : Options) (types : TypePatterns) :
    (html o types).tokenizer.Consumes :=
  Composite.tokenizer_consumes (Markup.Setup.tokenizer_consumes _)
    (Composite.html_embedsConsuming o types)

end Mixed

open Mixed

/-- **Total coverage.** Under all options the tokenizers of the library
read every document without a failure, html with its regions wherever the
script types can be read, and the spans of each line tile it; and so does
a composite of any host and any embedded tokenizers that consume. -/
theorem highlight_covers :
    (∀ (o : Options) (source : String),
      (∀ m, htmlOfOptions o = .ok m → m.tokenizer.Covers source) ∧
        (Markup.html o).Covers source ∧ (Markup.xml o).Covers source ∧
        (Script.tokenizer o).Covers source ∧ (Stylesheet.tokenizer o).Covers source ∧
        Plain.tokenizer.Covers source) ∧
    ∀ {η σ κ φ : Type} (m : Composite η σ κ φ), m.host.Consumes → m.EmbedsConsuming →
      ∀ source, m.tokenizer.Covers source := by
  refine ⟨fun o source => ⟨?_, ?_, ?_, ?_, ?_, ?_⟩, ?_⟩
  · intro m hm
    unfold htmlOfOptions at hm
    cases htypes : TypePatterns.ofOptions o with
    | error failure => simp [htypes, Except.map] at hm
    | ok types =>
      simp only [htypes, Except.map, Except.ok.injEq] at hm
      exact hm ▸ (html_consumes o types).covers source
  · exact (Markup.Setup.tokenizer_consumes _).covers source
  · exact (Markup.Setup.tokenizer_consumes _).covers source
  · exact (Script.tokenizer_consumes o).covers source
  · exact (Stylesheet.tokenizer_consumes o).covers source
  · exact Plain.tokenizer_consumes.covers source
  · intro η σ κ φ m hhost hm source
    exact (Composite.tokenizer_consumes hhost hm).covers source

/-- The default options are well formed, and under them a document with a
tag inside a string is covered. -/
theorem highlight_covers_default :
    (∃ m, htmlOfOptions {} = .ok m ∧ m.tokenizer.Covers "<script>'a</script>\r\nb") ∧
      (html {} .standard).tokenizer.Covers "<style>\n</ style >" := by
  have hok : (htmlOfOptions {}).isOk = true := by decide +kernel
  refine ⟨?_, highlight_covers.2 (html {} .standard) (Markup.Setup.tokenizer_consumes _)
    (Composite.html_embedsConsuming {} .standard) _⟩
  cases hm : htmlOfOptions {} with
  | error failure => simp [hm, Except.toBool] at hok
  | ok m => exact ⟨m, rfl, (highlight_covers.1 {} _).1 m hm⟩

end MixedMarkup
