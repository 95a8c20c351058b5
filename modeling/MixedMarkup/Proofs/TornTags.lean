import MixedMarkup.Proofs.Alignment
/-!
# Mixed documents — where a closing tag can be torn

A text tears the closing tag if it is the start of one, but not the whole of
it. There are infinitely many such texts, since blanks may stand at two
places of a tag, and in each letter of the name another letter may stand that
differs in case only. The search for a torn tag at the end of a token is
exact on them: it misses none (`isTorn_of_start`), and whatever it takes for
the start of a tag can be completed to one (`tears_of_isTorn`). The search
for a whole tag is exact as well: it finds the first one and no other
(`tear_and_search_exact`).
-/

namespace MixedMarkup

open Text

namespace Mixed

namespace EmbeddingElement

variable {e : EmbeddingElement} {text : List Char}

/-- The text is the start of a closing tag, and not the whole of it. -/
def Tears (e : EmbeddingElement) (text : List Char) : Prop :=
  text ≠ [] ∧ ∃ tag, e.IsClosingTag tag ∧ text <+: tag ∧ text ≠ tag

/-! ## Torn names can be completed -/

/-- **A torn name** is the start of a spelling of the name with blanks after
it. What is missing of the name is spelled as the name itself, which is its
own folding. -/
theorem exists_spelling_of_isTornName {name : List Char} (hfold : name.map foldCase = name)
    (h : isTornName name text = true) :
    ∃ spelling gap', text <+: spelling ++ gap' ∧ spelling.map foldCase = name ∧
      ∀ c ∈ gap', isBlank c = true := by
  induction text generalizing name with
  | nil => exact ⟨name, [], List.nil_prefix, hfold, by simp⟩
  | cons c text ih =>
    cases name with
    | nil =>
      simp only [isTornName, List.all_eq_true] at h
      exact ⟨[], c :: text, List.prefix_rfl, rfl, h⟩
    | cons n name =>
      simp only [isTornName, Bool.and_eq_true, beq_iff_eq] at h
      simp only [List.map_cons, List.cons.injEq] at hfold
      obtain ⟨spelling, gap', hpre, hspelling, hgap'⟩ := ih hfold.2 h.2
      refine ⟨c :: spelling, gap', ?_, by rw [List.map_cons, h.1, hspelling], hgap'⟩
      rw [List.cons_append, List.cons_prefix_cons]
      exact ⟨rfl, hpre⟩

/-- The names of the elements are their own foldings. -/
theorem map_foldCase_name (e : EmbeddingElement) : e.name.toList.map foldCase = e.name.toList := by
  cases e <;> decide

/-- What comes before the `>` of a tag tears it. -/
theorem tears_of_before_end {tag : List Char} (htag : e.IsClosingTag (tag ++ ['>']))
    (hpre : text <+: tag) (hne : text ≠ []) : e.Tears text := by
  refine ⟨hne, tag ++ ['>'], htag, hpre.trans (List.prefix_append tag _), ?_⟩
  rintro rfl
  have hlength := hpre.length_le
  rw [List.length_append, List.length_singleton] at hlength
  omega

/-- **What is taken for torn can be completed.** -/
theorem tears_of_isTorn (h : e.isTorn text = true) : e.Tears text := by
  unfold isTorn at h
  split at h
  · have htag : e.IsClosingTag (('<' :: '/' :: e.name.toList) ++ ['>']) :=
      ⟨[], e.name.toList, [], by simp, by simp, e.map_foldCase_name, by simp⟩
    exact tears_of_before_end htag (by simp) (by simp)
  · rename_i text
    obtain ⟨gap, hgap, htext⟩ := exists_dropBlanks text
    obtain ⟨spelling, gap', hpre, hspelling, hgap'⟩ :=
      exists_spelling_of_isTornName e.map_foldCase_name h
    have htag : e.IsClosingTag (('<' :: '/' :: (gap ++ (spelling ++ gap'))) ++ ['>']) :=
      ⟨gap, spelling, gap', by simp, hgap, hspelling, hgap'⟩
    refine tears_of_before_end htag ?_ (by simp)
    rw [List.cons_prefix_cons, List.cons_prefix_cons, htext]
    exact ⟨rfl, rfl, (List.prefix_append_right_inj gap).mpr hpre⟩
  · simp at h

/-- **The test for a torn tag is exact.** -/
theorem isTorn_iff : e.isTorn text = true ↔ e.Tears text := by
  constructor
  · exact tears_of_isTorn
  · rintro ⟨hne, tag, htag, hpre, hproper⟩
    exact isTorn_of_start htag hpre hne hproper

/-! ## The end of a token -/

/-- A text ends in a torn tag if one of its ends tears the tag. -/
theorem endsTorn_iff : e.endsTorn text = true ↔ ∃ left, left <:+ text ∧ e.Tears left := by
  constructor
  · intro h
    obtain ⟨skipped, left, rfl, hleft⟩ := exists_isTorn_of_endsTorn h
    exact ⟨left, List.suffix_append skipped left, isTorn_iff.mp hleft⟩
  · rintro ⟨left, ⟨skipped, rfl⟩, hleft⟩
    exact endsTorn_of_suffix hleft.1 (isTorn_iff.mpr hleft)

/-- A text ends in an opener if `<` or `</` ends it. -/
theorem endsInOpener_iff : endsInOpener text = true ↔ ['<'] <:+ text ∨ ['<', '/'] <:+ text := by
  constructor
  · exact suffix_of_endsInOpener
  · rintro (⟨skipped, rfl⟩ | ⟨skipped, rfl⟩)
    · exact endsInOpener_append skipped rfl
    · exact endsInOpener_append skipped rfl

/-- An opener is torn. -/
theorem endsTorn_of_endsInOpener (h : endsInOpener text = true) : e.endsTorn text = true := by
  obtain ⟨skipped, left, rfl, hleft⟩ := exists_isTorn_of_endsInOpener (e := e) h
  exact endsTorn_of_suffix (isTorn_iff.mp hleft).1 hleft

/-- Where more of the line follows, the openers add nothing to the torn
tags. -/
theorem mayTear_eq (moreFollows : Bool) :
    e.mayTear text moreFollows = if moreFollows then e.endsTorn text else endsInOpener text := by
  cases moreFollows with
  | false => simp [mayTear]
  | true =>
    simp only [mayTear, Bool.true_and, if_true]
    cases hopener : endsInOpener text with
    | false => rfl
    | true => rw [endsTorn_of_endsInOpener hopener, Bool.true_or]

/-! ## The search for the whole tag -/

/-- The tag stands at an offset if it is ahead of a cursor there. -/
theorem closesAtOffset_iff_cursor {line : List Char} {k : Nat} :
    e.ClosesAtOffset line k ↔
      ∃ c : Cursor, c.line = line ∧ c.pos = k ∧ e.closesAt c.rest = true := by
  constructor
  · rintro ⟨before, after, rfl, rfl, hcloses⟩
    exact ⟨⟨before, [], after, defaultTabSize⟩, rfl, rfl, closesAt_iff.mpr hcloses⟩
  · rintro ⟨c, rfl, rfl, hcloses⟩
    have hoffset := closesAtOffset_of_rest (List.nil_append c.rest).symm (closesAt_iff.mp hcloses)
    simpa using hoffset

/-- **The search finds the first offset** at which the tag stands. -/
theorem findClosing?_eq_some_iff {k : Nat} :
    e.findClosing? text = some k ↔ IsLeast {k | e.ClosesAtOffset text k} k := by
  have hwhole : {k | (Cursor.ofLine text).pos ≤ k ∧
      e.ClosesAtOffset (Cursor.ofLine text).line k} = {k | e.ClosesAtOffset text k} := by
    ext k
    exact and_iff_right (Nat.zero_le k)
  constructor
  · intro h
    rw [← hwhole]
    exact isLeast_of_findClosing? h
  · intro h
    cases hfind : e.findClosing? text with
    | none => exact absurd h.1 (not_closesAtOffset_of_findClosing? hfind k)
    | some k' =>
      have hleast := isLeast_of_findClosing? hfind
      rw [hwhole] at hleast
      rw [hleast.unique h]

/-- And where it finds none there is none. -/
theorem findClosing?_eq_none_iff :
    e.findClosing? text = none ↔ ∀ k, ¬ e.ClosesAtOffset text k := by
  constructor
  · exact not_closesAtOffset_of_findClosing?
  · intro h
    cases hfind : e.findClosing? text with
    | none => rfl
    | some k => exact absurd (findClosing?_eq_some_iff.mp hfind).1 (h k)

/-- **Torn and whole tags are recognised exactly.** Where more of the line
follows, a text may tear the closing tag if and only if an end of it, not
empty, is the start of a closing tag and not the whole of it; at the end of
the line, if and only if it ends in `<` or `</`. The search for the tag
gives the least byte offset at which a cursor has it ahead, and nothing if
there is no such offset. -/
theorem tear_and_search_exact (e : EmbeddingElement) (text : List Char) :
    (e.mayTear text true = true ↔ ∃ left, left <:+ text ∧ left ≠ [] ∧
        ∃ tag, e.IsClosingTag tag ∧ left <+: tag ∧ left ≠ tag) ∧
      (e.mayTear text false = true ↔ ['<'] <:+ text ∨ ['<', '/'] <:+ text) ∧
      (∀ k, e.findClosing? text = some k ↔
        IsLeast {k | ∃ c : Cursor, c.line = text ∧ c.pos = k ∧ e.closesAt c.rest = true} k) ∧
      (e.findClosing? text = none ↔
        ¬ ∃ (k : Nat) (c : Cursor), c.line = text ∧ c.pos = k ∧ e.closesAt c.rest = true) := by
  refine ⟨?_, ?_, ?_, ?_⟩
  · rw [mayTear_eq]
    exact endsTorn_iff
  · rw [mayTear_eq]
    exact endsInOpener_iff
  · intro k
    simp only [findClosing?_eq_some_iff, closesAtOffset_iff_cursor]
  · simp only [findClosing?_eq_none_iff, closesAtOffset_iff_cursor, not_exists]

/-- A tag torn behind its name, and a text that is not torn since a blank
stands within the name. -/
example : EmbeddingElement.script.mayTear "x</ SCRipt ".toList true = true ∧
    EmbeddingElement.script.mayTear "x</ SCRipt ".toList false = false ∧
    EmbeddingElement.script.mayTear "x</sc ript".toList true = false := by
  decide

end EmbeddingElement

end Mixed

end MixedMarkup
