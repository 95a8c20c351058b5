import MixedMarkup.Proofs.Alignment
/-!
# Mixed documents — embedding is transparent to styles

In a region the composite gives every byte the style that the region's
tokenizer alone gives it on the line cut before the closing tag, though
it may cut the text into other tokens; and where no closing tag comes it
leaves the line in the tokenizer's state (`Transparent`). A line that ends
in `<` or `</` is left out: there the composite cannot tell yet whether
the tag begins, and reads the last token again from its second character.
-/

namespace MixedMarkup

open Text Mixed

/-- The style that spans give the byte at an offset, if one covers it. -/
def styleAt (spans : List Span) (p : Nat) : Option (Option Style) :=
  (spans.find? fun s => s.start ≤ p ∧ p < s.stop).map (·.style)

/-- The cursor on its line when that is cut at the byte offset `k`. -/
def Cursor.upTo (k : Nat) (c : Cursor) : Cursor := c.cutTo (splitBytes (k - c.pos) c.rest).1

/-- **Spans that tile cover the bytes in order.** -/
theorem Tiles.styleAt_eq {line : List Char} {spans : List Span} {q : Nat} :
    ∀ {first p : Nat}, Tiles line first spans q → first ≤ p →
      styleAt spans p = (byteStyles spans)[p - first]? := by
  induction spans with
  | nil => simp [styleAt, byteStyles]
  | cons s spans ih =>
    intro first p h hle
    obtain ⟨rfl, ⟨before, text, after, -, -, hstart, hstop, -⟩, htail⟩ := h
    have hsize : s.start ≤ s.stop := by
      rw [hstart, hstop, byteSize_append]
      omega
    by_cases hp : p < s.stop
    · have hin : p - s.start < s.stop - s.start := by omega
      simp [styleAt, byteStyles, hle, hp, hin, List.getElem?_append]
    · have hout : ¬ p - s.start < s.stop - s.start := by omega
      have hskip : p - s.start - (s.stop - s.start) = p - s.stop := by omega
      have hfind : styleAt (s :: spans) p = styleAt spans p := by simp [styleAt, hp]
      rw [hfind, ih htail (by omega)]
      simp [byteStyles, hout, List.getElem?_append, hskip]

namespace Tokenizer.Consumes

variable {σ : Type} {t : Tokenizer σ}

/-- The spans of what is left of a line tile it. -/
theorem readFrom_tiles (ht : t.Consumes) (index : Nat) (c : Cursor) (s : σ) :
    Tiles c.line c.pos (t.readFrom index c s).spans (byteSize c.line) := by
  obtain ⟨calls, d, s', hrun, hd⟩ := ht.exists_run c s
  have hpos : d.pos = byteSize c.line := by
    rw [← hrun.line, Cursor.line, hd, Cursor.pos_eq, List.append_nil]
  rw [hrun.readFrom_eq index, readFrom_of_atEnd t hd, List.append_nil]
  exact hpos ▸ hrun.tiles index

end Tokenizer.Consumes

namespace Mixed

namespace Composite

variable {η σ κ φ τ : Type} {m : Composite η σ κ φ} {t : Tokenizer τ} {wrap : τ → Region σ κ}
variable {e : EmbeddingElement}

/-- **The composite is transparent to the styles of a tokenizer**: in a
region of it, wherever a token starts on a line without line feeds, the
bytes up to the first closing tag get the styles that the tokenizer alone
gives them on the line cut at the tag. If the tag stands nowhere ahead, and
the line ends neither in `<` nor in `</`, that is so up to the end of the
line, and the region is left in the state the tokenizer alone ends in. -/
def Transparent (m : Composite η σ κ φ) (t : Tokenizer τ) (wrap : τ → Region σ κ)
    (e : EmbeddingElement) : Prop :=
  ∀ (index : Nat) (c : Cursor) (st : State η σ κ) (s : τ), st.region = some (wrap s) →
    '\n' ∉ c.line →
    (∀ k, IsLeast {k | c.pos ≤ k ∧ e.ClosesAtOffset c.line k} k → ∀ p, c.pos ≤ p → p < k →
      ∃ style, styleAt (m.tokenizer.readFrom index c st).spans p = some style ∧
        styleAt (t.readFrom index (c.upTo k) s).spans p = some style) ∧
    ((∀ k, c.pos ≤ k → ¬ e.ClosesAtOffset c.line k) →
      ¬ ['<'] <:+ c.line → ¬ ['<', '/'] <:+ c.line →
      (∀ p, c.pos ≤ p → p < byteSize c.line →
        ∃ style, styleAt (m.tokenizer.readFrom index c st).spans p = some style ∧
          styleAt (t.readFrom index c s).spans p = some style) ∧
      (m.tokenizer.readFrom index c st).state.region = some (wrap (t.readFrom index c s).state))

variable {index : Nat} {c : Cursor} {st : State η σ κ} {s : τ} {body after more : List Char}

/-- Equal bytes have equal styles at their offsets. -/
theorem exists_styleAt {more : List (Option Style)} (hm : m.tokenizer.Consumes) (ht : t.Consumes)
    (hstyles : byteStyles (m.tokenizer.readFrom index c st).spans =
      byteStyles (t.readFrom index (c.cutTo body) s).spans ++ more) {p : Nat} (hle : c.pos ≤ p)
    (hlt : p < c.pos + byteSize body) :
    ∃ style, styleAt (m.tokenizer.readFrom index c st).spans p = some style ∧
      styleAt (t.readFrom index (c.cutTo body) s).spans p = some style := by
  have hlength := ht.length_byteStyles index (c.cutTo body) s
  have hin : p - c.pos < (byteStyles (t.readFrom index (c.cutTo body) s).spans).length := by
    rw [hlength]
    change p - c.pos < byteSize body
    omega
  have halone := (ht.readFrom_tiles index (c.cutTo body) s).styleAt_eq hle
  refine ⟨_, ?_, halone.trans (List.getElem?_eq_getElem hin)⟩
  rw [(hm.readFrom_tiles index c st).styleAt_eq hle, hstyles, List.getElem?_append_left hin]
  exact List.getElem?_eq_getElem hin

/-- **Any composite is, of tokenizers whose tokens it guards.** -/
theorem Embeds.transparent (he : m.Embeds t wrap e) (hg : e.Guards t)
    (hm : m.tokenizer.Consumes) (ht : t.Consumes) : m.Transparent t wrap e := by
  intro index c st s hr hlf
  have hrestlf : '\n' ∉ c.rest := by
    rw [Cursor.line, List.mem_append, List.mem_append] at hlf
    exact fun h => hlf (.inr (.inr h))
  constructor
  · intro k hk p hle hlt
    obtain ⟨body, after, hrest, rfl, hcloses, hclear⟩ := EmbeddingElement.isLeast_iff_clear.mp hk
    have hcut : c.upTo (c.pos + byteSize body) = c.cutTo body := by
      rw [Cursor.upTo, Nat.add_sub_cancel_left, hrest, splitBytes_byteSize]
    rw [hcut]
    cases he.aligned hg index hr hrest hclear (.inr hcloses) (hrest ▸ hrestlf) with
    | through _ hstyles _ _ => exact exists_styleAt hm ht hstyles hle hlt
    | torn hafter =>
      obtain ⟨left, hleft⟩ := hcloses.exists_cons
      simp [hafter] at hleft
  · intro hnone hopen hopen'
    have hclear := EmbeddingElement.forall_not_iff_clear.mp hnone
    have hcut : c.cutTo c.rest = c := rfl
    have hsize : byteSize c.line = c.pos + byteSize c.rest := by
      rw [Cursor.line, ← List.append_assoc, byteSize_append, Cursor.pos_eq]
    cases he.aligned hg index hr (List.append_nil _).symm hclear (.inl rfl)
      (by rwa [List.append_nil]) with
    | through hend hstyles hstate hregion =>
      rw [hsize]
      refine ⟨fun p hle hlt => exists_styleAt hm ht hstyles hle hlt, ?_⟩
      rw [hstate, Tokenizer.readFrom_of_atEnd _ hend]
      exact hregion rfl
    | torn _ hopener =>
      have hline : c.rest <:+ c.line := by
        rw [Cursor.line, ← List.append_assoc]
        exact List.suffix_append _ _
      rcases EmbeddingElement.suffix_of_endsInOpener hopener with h | h
      · exact absurd (h.trans hline) hopen
      · exact absurd (h.trans hline) hopen'

/-- **Embedding is transparent to highlighting**, of scripts in their
regions and of styles in theirs. -/
theorem embedding_transparent (o : Options) (types : TypePatterns) :
    (html o types).Transparent (Script.tokenizer o) .script .script ∧
      (html o types).Transparent (Stylesheet.tokenizer o) .style .style :=
  ⟨(html_embeds_script o types).transparent (guards_script _ o) (html_consumes o types)
      (Script.tokenizer_consumes o),
    (html_embeds_style o types).transparent (guards_style _ o) (html_consumes o types)
      (Stylesheet.tokenizer_consumes o)⟩

/-- The run `=<<` reaches into the closing tag and is read in three pieces,
all of them operators as `=<` alone is; and a comment that is open at the
end of a line behind a torn tag is open in the region. -/
theorem embedding_transparent_in_operators :
    insideScript.region = some (.script (.initial 0)) ∧
    IsLeast {k | (Cursor.ofLine "a=<</script>".toList).pos ≤ k ∧
      EmbeddingElement.script.ClosesAtOffset (Cursor.ofLine "a=<</script>".toList).line k} 3 ∧
    (∀ p, p < 3 → ∃ style,
      styleAt ((html {} .standard).tokenizer.readFrom 0 (.ofLine "a=<</script>".toList)
        insideScript).spans p = some style ∧
      styleAt ((Script.tokenizer {}).readFrom 0 ((Cursor.ofLine "a=<</script>".toList).upTo 3)
        (.initial 0)).spans p = some style) ∧
    ((html {} .standard).tokenizer.readFrom 0 (.ofLine "x </scr /* y".toList)
        insideScript).state.region =
      some (.script ((Script.tokenizer {}).readFrom 0 (.ofLine "x </scr /* y".toList)
        (.initial 0)).state) := by
  have hleast := EmbeddingElement.isLeast_of_findClosing?
    (by decide : EmbeddingElement.script.findClosing? "a=<</script>".toList = some 3)
  have hnone := EmbeddingElement.not_closesAtOffset_of_findClosing?
    (by decide : EmbeddingElement.script.findClosing? "x </scr /* y".toList = none)
  have htransparent := (embedding_transparent {} .standard).1
  refine ⟨rfl, hleast, ?_, ?_⟩
  · intro p hp
    exact (htransparent 0 _ insideScript _ rfl (by decide)).1 3 hleast p (Nat.zero_le p) hp
  · exact ((htransparent 0 _ insideScript _ rfl (by decide)).2 (fun k _ => hnone k) (by decide)
      (by decide)).2

end Composite

end Mixed

end MixedMarkup
