import MixedMarkup.Proofs.RegionLeaving
/-!
# Mixed documents — what is taken for a closing tag

The closing tag of a region is recognised three times: by the composite,
which leaves the region there; by the host, which reads the tag; and by the
indentation of a line that begins with it. The three differ. The composite
allows blanks before the name and takes every letter that folds to one of
the name; the host allows the blanks, but folds the letters of ASCII only;
the indentation folds as the host does and allows no blanks.
`closing_tag_readings` says of every tag that the composite accepts what
the other two make of it, and `closing_tag_disputed` shows two on which
they fall out.
-/

namespace MixedMarkup

open Cursor Text

/-! ## The indentation -/

namespace Markup

variable {top : Element} {outer : List Element} {s : State} {text text' : List Char}

/-- No blank may stand in a name. -/
theorem isNameChar_of_isBlank {x : Char} (h : isBlank x = true) : isNameChar x = false := by
  have hall : ∀ n ∈ blankCodes, isNameChar (Char.ofNat n) = false := by decide +kernel
  have hx := hall x.toNat (mem_blankCodes h)
  rwa [Char.ofNat_toNat] at hx

/-- A closing tag ahead closes the innermost element if it has its name, and
nothing else where that element does not end by itself. -/
theorem Flavour.contextAhead_closing (f : Flavour) (hself : f.endsItself top.name = false)
    (text : List Char) :
    f.contextAhead (top :: outer) ('<' :: '/' :: text) =
      if top.name = f.elementName (text.takeWhile isNameChar) then outer else top :: outer := by
  simp [contextAhead, tagAhead?, outsideClosing, hself]

/-- **Lines with the same elements around them are indented alike**, outside
tags. -/
theorem Setup.indent_congr (m : Setup) (hzone : s.zone = .text) (htag : s.tagName = none)
    (h : m.flavour.contextAhead s.context (dropBlanks text) =
      m.flavour.contextAhead s.context (dropBlanks text')) :
    m.indent s text = m.indent s text' := by
  simp only [indent, hzone, lineColumn, htag, h]

/-- Whether a token of a closing tag is an error hangs on its name. -/
theorem error_mem_closingTokens (gap spelling gap' : List Char) {fits : Bool} :
    (∃ token ∈ closingTokens gap spelling gap' fits, token.2 = some .error) ↔ fits = false := by
  have hblanks : ∀ gap : List Char, ∀ token ∈ blankTokens gap, token.2 = none := by
    intro gap token htoken
    unfold blankTokens at htoken
    split at htoken
    · simp at htoken
    · obtain rfl := List.mem_singleton.mp htoken
      rfl
  constructor
  · rintro ⟨token, htoken, herror⟩
    cases fits with
    | false => rfl
    | true =>
      simp only [closingTokens, List.mem_append, List.mem_singleton] at htoken
      rcases htoken with rfl | htoken | rfl | htoken | rfl
      · simp at herror
      · simp [hblanks gap token htoken] at herror
      · simp [closingStyle] at herror
      · simp [hblanks gap' token htoken] at herror
      · simp [closingStyle] at herror
  · rintro rfl
    exact ⟨(spelling, some .error), by simp [closingTokens, closingStyle], rfl⟩

end Markup

namespace Mixed

namespace EmbeddingElement

variable {e : EmbeddingElement} {gap spelling gap' after : List Char}

/-- A letter of a name, however it is spelled, may stand in the name of a
tag ahead. -/
theorem isNameChar_of_spelling {x : Char} (h : foldCase x ∈ e.name.toList) :
    Markup.isNameChar x = true := by
  refine of_spelling (p := fun x => Markup.isNameChar x = true) h ?_
  cases e <;> decide +kernel

/-- **The name that the indentation finds** after the delimiter: the name as
it is spelled, or none where a blank comes first. -/
theorem takeWhile_isNameChar (hgap : ∀ x ∈ gap, isBlank x = true)
    (hfold : spelling.map foldCase = e.name.toList) (hgap' : ∀ x ∈ gap', isBlank x = true) :
    (gap ++ (spelling ++ (gap' ++ '>' :: after))).takeWhile Markup.isNameChar =
      if gap = [] then spelling else [] := by
  cases gap with
  | nil =>
    rw [List.nil_append, if_pos rfl]
    refine takeWhile_eq_of_stop ?_ ?_
    · intro x hx
      exact isNameChar_of_spelling (hfold ▸ List.mem_map_of_mem hx)
    · exact head?_of_blanks hgap' (fun _ => Markup.isNameChar_of_isBlank) (by decide)
  | cons y gap => simp [Markup.isNameChar_of_isBlank (hgap y (by simp))]

/-- **The elements around a line that begins with a tag.** The tag is taken
for the element's if no blank comes before its name and the name is spelled
with the letters of ASCII. -/
theorem contextAhead_of_tag {top : Markup.Element} (outer : List Markup.Element)
    (after : List Char) (htop : top.name = e.name) (hgap : ∀ x ∈ gap, isBlank x = true)
    (hfold : spelling.map foldCase = e.name.toList) (hgap' : ∀ x ∈ gap', isBlank x = true) :
    Markup.Flavour.html.contextAhead (top :: outer)
        ('<' :: '/' :: (gap ++ (spelling ++ (gap' ++ '>' :: after)))) =
      if gap = [] ∧ spelling.map Char.toLower = e.name.toList then outer else top :: outer := by
  have hself : Markup.Flavour.html.endsItself top.name = false := by
    rw [htop]
    exact e.endsItself_name
  rw [Markup.Flavour.html.contextAhead_closing hself, takeWhile_isNameChar hgap hfold hgap', htop]
  simp only [← String.toList_inj, Markup.Flavour.elementName, String.toList_ofList]
  by_cases hnil : gap = []
  · simp [hnil, eq_comm]
  · have hname : e.name.toList ≠ [] := by cases e <;> decide
    simp [hnil, hname]

end EmbeddingElement

namespace Composite

variable (o : Options) (types : TypePatterns)
variable {s : State Markup.State Script.State Stylesheet.State} {c : Cursor}
variable {r : Region Script.State Stylesheet.State}
variable {gap spelling gap' after : List Char}

/-- In a region, a line that begins with the delimiter of a closing tag is
indented by the host. -/
theorem indent_of_delimiter {η σ κ φ : Type} {m : Composite η σ κ φ} {s : State η σ κ}
    {r : Region σ κ} (hr : s.region = some r) (text : List Char) :
    m.indent s ('<' :: '/' :: text) = m.host.indent s.host ('<' :: '/' :: text) := by
  have hstarts : startsClosing ('<' :: '/' :: text) = true := by
    have hblank : isBlank '<' = false := by decide
    simp [startsClosing, dropBlanks_of_head hblank]
  simp only [indent, hr, hstarts, if_true]

/-- **The indentation takes a tag for the region's** if no blank comes before
its name and the name is spelled with the letters of ASCII. Otherwise the
line is indented like one without a tag. -/
theorem indent_closing (h : s.Consistent o) (hr : s.region = some r)
    (hgap : ∀ x ∈ gap, isBlank x = true) (hfold : spelling.map foldCase = r.element.name.toList)
    (hgap' : ∀ x ∈ gap', isBlank x = true) :
    (html o types).indent s ('<' :: '/' :: (gap ++ (spelling ++ (gap' ++ '>' :: after)))) =
      if gap = [] ∧ spelling.map Char.toLower = r.element.name.toList then
        (html o types).indent s ('<' :: '/' :: (r.element.name.toList ++ ['>']))
      else (html o types).host.indent s.host [] := by
  have hparked := h.parked r hr
  obtain ⟨top, outer, hcontext⟩ := hparked.exists_context
  have htop : top.name = r.element.name := hparked.name_of_context hcontext
  have hdrop : ∀ text, dropBlanks ('<' :: '/' :: text) = '<' :: '/' :: text :=
    fun text => dropBlanks_of_head (by decide)
  have hahead := EmbeddingElement.contextAhead_of_tag outer after htop hgap hfold hgap'
  rw [indent_of_delimiter hr, indent_of_delimiter hr]
  split
  · rename_i hplain
    have hnone : ∀ x ∈ ([] : List Char), isBlank x = true := by simp
    have hspelled : r.element.name.toList.map foldCase = r.element.name.toList := by
      cases r.element <;> decide
    have hname := EmbeddingElement.contextAhead_of_tag outer [] htop hnone hspelled hnone
    rw [if_pos ⟨rfl, by cases r.element <;> decide⟩] at hname
    rw [if_pos hplain] at hahead
    refine (Markup.Setup.ofOptions .html o).indent_congr hparked.zone hparked.tagName ?_
    rw [hdrop, hdrop, hcontext]
    exact hahead.trans hname.symm
  · rename_i hother
    rw [if_neg hother] at hahead
    refine (Markup.Setup.ofOptions .html o).indent_congr hparked.zone hparked.tagName ?_
    rw [hdrop, hcontext]
    exact hahead

/-- **What is taken for a closing tag.** In every state that calls of the
html composite lead to, with a region open, and wherever the region's
closing tag stands for the composite, the tag has blanks, a name and blanks
after its delimiter. The host goes over it in tokens of its own, of which
one is an error exactly where the name is not spelled with the letters of
ASCII. And a line that begins with it is indented like one that begins with
the plain closing tag if the name is spelled so and no blanks come before
it; otherwise it is indented like a line of the element's content. -/
theorem closing_tag_readings (h : (html o types).tokenizer.Reachable s) (hr : s.region = some r)
    (hcloses : r.element.closesAt c.rest = true) :
    ∃ gap spelling gap' after,
      c.rest = '<' :: '/' :: (gap ++ (spelling ++ (gap' ++ '>' :: after))) ∧
      (∀ x ∈ gap, isBlank x = true) ∧ spelling.map foldCase = r.element.name.toList ∧
      (∀ x ∈ gap', isBlank x = true) ∧
      (∃ calls d s', (html o types).tokenizer.Run c s calls d s' ∧ d.rest = after ∧
        (∀ k ∈ calls, ((html o types).tokenizer.stepOf k).state.last = .host) ∧
        ((∃ k ∈ calls, ((html o types).tokenizer.stepOf k).style = some .error) ↔
          spelling.map Char.toLower ≠ r.element.name.toList)) ∧
      (html o types).indent s c.rest =
        if gap = [] ∧ spelling.map Char.toLower = r.element.name.toList then
          (html o types).indent s ('<' :: '/' :: (r.element.name.toList ++ ['>']))
        else (html o types).host.indent s.host [] := by
  have hconsistent := consistent_of_reachable o types h
  obtain ⟨_, ⟨gap, spelling, gap', rfl, hgap, hfold, hgap'⟩, after, hafter⟩ :=
    EmbeddingElement.closesAt_iff.mp hcloses
  have hrest : c.rest = '<' :: '/' :: (gap ++ (spelling ++ (gap' ++ '>' :: after))) := by
    rw [← hafter]
    simp
  obtain ⟨top, outer, hcontext⟩ := (hconsistent.parked r hr).exists_context
  obtain ⟨d, host, ⟨calls, hrun, htokens, hlast⟩, hd, -⟩ :=
    yields_closing o types hconsistent hr hcontext hrest hgap hfold hgap'
  refine ⟨gap, spelling, gap', after, hrest, hgap, hfold, hgap', ⟨calls, d, _, hrun, hd, hlast, ?_⟩,
    hrest ▸ indent_closing o types hconsistent hr hgap hfold hgap'⟩
  rw [Ne, ← decide_eq_false_iff_not, ← Markup.error_mem_closingTokens gap spelling gap',
    ← htokens]
  simp [Tokenizer.tokenOf]

/-- A tag with a blank and a capital after a script. -/
theorem closing_tag_readings_with_blank :
    (html {} .standard).tokenizer.Reachable (leftBy ["<script>"]) ∧
      EmbeddingElement.script.closesAt "</ Script >x".toList = true ∧
      ∃ gap spelling gap' after, "</ Script >x".toList =
          '<' :: '/' :: (gap ++ (spelling ++ (gap' ++ '>' :: after))) ∧
        ∃ calls d s', (html {} .standard).tokenizer.Run (.ofLine "</ Script >x".toList)
            (leftBy ["<script>"]) calls d s' ∧ d.rest = after ∧
          ((∃ k ∈ calls, ((html {} .standard).tokenizer.stepOf k).style = some .error) ↔
            spelling.map Char.toLower ≠ "script".toList) := by
  have hreach : (html {} .standard).tokenizer.Reachable (leftBy ["<script>"]) :=
    .readLines (.start 0) 0 _
  have hregion : (leftBy ["<script>"]).region = some (.script (.initial 2)) := by decide +kernel
  have hcloses : EmbeddingElement.script.closesAt "</ Script >x".toList = true := by
    decide +kernel
  obtain ⟨gap, spelling, gap', after, htext, -, -, -, ⟨calls, d, s', hrun, hd, -, herror⟩, -⟩ :=
    closing_tag_readings {} .standard (c := .ofLine "</ Script >x".toList) hreach hregion hcloses
  exact ⟨hreach, hcloses, gap, spelling, gap', after, htext, calls, d, s', hrun, hd, herror⟩

/-- **The three fall out.** After the opening tag of a script, both
`</ script>` and the tag with a long s leave the script. A line with the
first is indented like the script's content, though the plain tag stands at
the margin; the second is read with errors. -/
theorem closing_tag_disputed :
    (html {} .standard).tokenizer.Reachable (leftBy ["<script>"]) ∧
      EmbeddingElement.script.closesAt "</ script>".toList = true ∧
      (html {} .standard).indent (leftBy ["<script>"]) "</ script>".toList = some 2 ∧
      (html {} .standard).indent (leftBy ["<script>"]) "</script>".toList = some 0 ∧
      EmbeddingElement.script.closesAt "</ſcript>".toList = true ∧
      ((html {} .standard).tokenizer.readLine 1 "</ſcript>".toList
        (leftBy ["<script>"])).spans.map Span.content =
          [("</", some .tag), ("ſcript", some .error), (">", some .error)] := by
  refine ⟨.readLines (.start 0) 0 _, ?_, ?_, ?_, ?_, ?_⟩ <;> decide +kernel

end Composite

end Mixed

end MixedMarkup
