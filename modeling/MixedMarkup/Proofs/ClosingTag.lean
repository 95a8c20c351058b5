import MixedMarkup.Mixed.ClosingTag
import MixedMarkup.Proofs.Tiling
import Mathlib.Data.List.TakeWhile
/-!
# Mixed documents — what a closing tag is, and what trimming keeps

`IsClosingTag` writes out the texts of an element's closing tag, and
`Closes` says that a text begins with one; the functions that look for
the tag are read off these two (`closesAt_iff`, `findClosing?_eq_some`,
`endsTorn_of_suffix`). A tag holds a single `<`, so two of them never
overlap, and a start of it that breaks off is recognised as torn whatever
its blanks and letters. The main statement is `trim_took`: a token that
is trimmed keeps a character at least, and no closing tag starts inside
what it keeps.
-/

namespace MixedMarkup

open Text

/-! ## Blanks and letters -/

namespace Text

/-- The code points of the blanks. -/
def blankCodes : List Nat :=
  [0x9, 0xA, 0xB, 0xC, 0xD, 0x20, 0x85, 0xA0, 0x1680, 0x2000, 0x2001, 0x2002, 0x2003, 0x2004,
    0x2005, 0x2006, 0x2007, 0x2008, 0x2009, 0x200A, 0x2028, 0x2029, 0x202F, 0x205F, 0x3000]

theorem mem_blankCodes {c : Char} (h : isBlank c = true) : c.toNat ∈ blankCodes := by
  simp only [isBlank, isAscii, inRanges, blankRanges, List.any_cons, List.any_nil,
    Bool.or_false] at h
  simp only [blankCodes, List.mem_cons, List.not_mem_nil, or_false]
  split at h
  · simp at h
    omega
  · simp at h
    omega

/-- A blank has no case. -/
theorem foldCase_of_isBlank {c : Char} (h : isBlank c = true) : foldCase c = c := by
  have hfold : ∀ n ∈ blankCodes, foldCase (Char.ofNat n) = Char.ofNat n := by decide +kernel
  have hc := hfold c.toNat (mem_blankCodes h)
  rwa [Char.ofNat_toNat] at hc

theorem dropBlanks_append {gap text : List Char} (hgap : ∀ c ∈ gap, isBlank c = true) :
    dropBlanks (gap ++ text) = dropBlanks text := by
  unfold dropBlanks
  induction gap with
  | nil => rfl
  | cons c cs ih =>
    have hc : isBlank c = true := hgap c (by simp)
    rw [List.cons_append, List.dropWhile_cons_of_pos hc]
    exact ih fun x hx => hgap x (by simp [hx])

theorem dropBlanks_of_head {c : Char} {text : List Char} (h : isBlank c = false) :
    dropBlanks (c :: text) = c :: text := by
  simp [dropBlanks, h]

/-- A text is its leading blanks and what is left without them. -/
theorem exists_dropBlanks (text : List Char) :
    ∃ gap, (∀ c ∈ gap, isBlank c = true) ∧ text = gap ++ dropBlanks text :=
  ⟨text.takeWhile isBlank, fun _ hc => List.mem_takeWhile_imp hc,
    List.takeWhile_append_dropWhile.symm⟩

/-- Dropping a literal in any case drops a spelling of it. -/
theorem dropAnyCase?_eq_some {literal text rest : List Char} :
    dropAnyCase? literal text = some rest ↔
      ∃ spelling, text = spelling ++ rest ∧ spelling.map foldCase = literal := by
  induction literal generalizing text with
  | nil =>
    simp only [dropAnyCase?, Option.some.injEq, List.map_eq_nil_iff]
    constructor
    · intro h
      exact ⟨[], h, rfl⟩
    · rintro ⟨spelling, rfl, rfl⟩
      rfl
  | cons l literal ih =>
    cases text with
    | nil =>
      simp only [dropAnyCase?, reduceCtorEq, false_iff]
      rintro ⟨spelling, htext, hfold⟩
      have hnil : spelling = [] := (List.append_eq_nil_iff.mp htext.symm).1
      simp [hnil] at hfold
    | cons c text =>
      simp only [dropAnyCase?]
      constructor
      · intro h
        split at h
        · rename_i hc
          obtain ⟨spelling, rfl, hfold⟩ := ih.mp h
          exact ⟨c :: spelling, rfl, by simp [hc, hfold]⟩
        · simp at h
      · rintro ⟨spelling, htext, hfold⟩
        cases spelling with
        | nil => simp at hfold
        | cons x spelling =>
          simp only [List.map_cons, List.cons.injEq, List.cons_append] at hfold htext
          obtain ⟨rfl, rfl⟩ := htext
          rw [if_pos hfold.1]
          exact ih.mpr ⟨spelling, rfl, hfold.2⟩

end Text

namespace Mixed

namespace EmbeddingElement

/-! ## The tag -/

/-- The texts of the closing tag: `</`, blanks, a spelling of the name,
blanks, `>`. -/
def IsClosingTag (e : EmbeddingElement) (tag : List Char) : Prop :=
  ∃ gap spelling gap', tag = '<' :: '/' :: (gap ++ (spelling ++ (gap' ++ ['>']))) ∧
    (∀ c ∈ gap, isBlank c = true) ∧ spelling.map foldCase = e.name.toList ∧
    ∀ c ∈ gap', isBlank c = true

/-- The closing tag stands at the start of a text. -/
def Closes (e : EmbeddingElement) (text : List Char) : Prop :=
  ∃ tag, e.IsClosingTag tag ∧ tag <+: text

/-- The closing tag stands at the byte offset `k` of a line. -/
def ClosesAtOffset (e : EmbeddingElement) (line : List Char) (k : Nat) : Prop :=
  ∃ before after, line = before ++ after ∧ byteSize before = k ∧ e.Closes after

variable {e : EmbeddingElement} {tag text body after kept rest : List Char}

/-- A spelling of the name starts with something that is no blank. -/
theorem exists_cons_of_spelling {spelling : List Char}
    (h : spelling.map foldCase = e.name.toList) :
    ∃ c cs, spelling = c :: cs ∧ isBlank c = false := by
  obtain ⟨l, ls, hname, hl⟩ : ∃ l ls, e.name.toList = l :: ls ∧ isBlank l = false := by
    cases e
    · exact ⟨'s', "cript".toList, by decide, by decide⟩
    · exact ⟨'s', "tyle".toList, by decide, by decide⟩
  cases spelling with
  | nil => simp [hname] at h
  | cons c cs =>
    rw [hname, List.map_cons, List.cons.injEq] at h
    refine ⟨c, cs, rfl, ?_⟩
    -- a blank is its own folding, and no blank is a letter of the name
    by_contra hblank
    have hc : foldCase c = c := foldCase_of_isBlank (by simpa using hblank)
    rw [← hc, h.1] at hblank
    exact hblank hl

/-- **The tag is found where it stands.** -/
theorem closesAt_iff : e.closesAt text = true ↔ e.Closes text := by
  constructor
  · intro h
    unfold closesAt at h
    split at h
    · rename_i text
      split at h
      · rename_i rest hrest
        obtain ⟨spelling, hspell, hfold⟩ := dropAnyCase?_eq_some.mp hrest
        obtain ⟨gap, hgap, htext⟩ := exists_dropBlanks text
        obtain ⟨gap', hgap', hrest'⟩ := exists_dropBlanks rest
        have hend : ∃ left, dropBlanks rest = '>' :: left := by
          cases hd : dropBlanks rest with
          | nil => simp [hd] at h
          | cons c left => exact ⟨left, by simpa [hd] using h⟩
        obtain ⟨left, hleft⟩ := hend
        -- what the search drops on its way are the parts of a tag
        refine ⟨_, ⟨gap, spelling, gap', rfl, hgap, hfold, hgap'⟩, left, ?_⟩
        rw [htext, hspell, hrest', hleft]
        simp
      · simp at h
    · simp at h
  · rintro ⟨_, ⟨gap, spelling, gap', rfl, hgap, hfold, hgap'⟩, left, rfl⟩
    -- neither the name nor `>` begins with a blank, so the search drops the blanks and no more
    obtain ⟨c, cs, hspell, hc⟩ := exists_cons_of_spelling hfold
    have hdrop : dropBlanks (gap ++ (spelling ++ (gap' ++ '>' :: left))) =
        spelling ++ (gap' ++ '>' :: left) := by
      rw [dropBlanks_append hgap, hspell]
      exact dropBlanks_of_head hc
    have hname : dropAnyCase? e.name.toList (spelling ++ (gap' ++ '>' :: left)) =
        some (gap' ++ '>' :: left) := dropAnyCase?_eq_some.mpr ⟨spelling, rfl, hfold⟩
    have hend : dropBlanks (gap' ++ '>' :: left) = '>' :: left := by
      rw [dropBlanks_append hgap']
      exact dropBlanks_of_head (by decide)
    simp only [List.cons_append, List.append_assoc, List.nil_append, closesAt, hdrop, hname, hend]
    simp

instance (e : EmbeddingElement) (text : List Char) : Decidable (e.Closes text) :=
  decidable_of_iff (e.closesAt text = true) closesAt_iff

/-- A tag that is there is there whatever follows. -/
theorem Closes.append (h : e.Closes text) (after : List Char) : e.Closes (text ++ after) := by
  obtain ⟨tag, htag, hpre⟩ := h
  exact ⟨tag, htag, hpre.trans (List.prefix_append text after)⟩

theorem Closes.exists_cons (h : e.Closes text) : ∃ left, text = '<' :: left := by
  obtain ⟨_, ⟨gap, spelling, gap', rfl, -, -, -⟩, left, rfl⟩ := h
  exact ⟨_, rfl⟩

/-- **A closing tag has no `<` but its first character.** -/
theorem IsClosingTag.not_mem_tail (h : e.IsClosingTag tag) : '<' ∉ tag.tail := by
  obtain ⟨gap, spelling, gap', rfl, hgap, hfold, hgap'⟩ := h
  simp only [List.tail_cons, List.mem_cons, List.mem_append, List.not_mem_nil, or_false]
  rintro (h | h | h | h | h)
  · exact absurd h (by decide)
  · exact absurd (hgap _ h) (by decide)
  · have hmem : foldCase '<' ∈ e.name.toList := hfold ▸ List.mem_map_of_mem h
    cases e <;> exact absurd hmem (by decide)
  · exact absurd (hgap' _ h) (by decide)
  · exact absurd h (by decide)

/-- So a second `<` ends what can be the start of one: a tag that reaches
over it would hold it. -/
theorem IsClosingTag.not_reaches_over {left : List Char} (h : e.IsClosingTag tag)
    (hne : body ≠ []) : ¬ body ++ '<' :: left <+: tag := by
  rintro ⟨more, rfl⟩
  cases body with
  | nil => exact hne rfl
  | cons c cs =>
    apply h.not_mem_tail
    simp

/-! ## Text without a closing tag -/

/-- No closing tag starts inside `body`, which `after` follows. -/
def Clear (e : EmbeddingElement) (body after : List Char) : Prop :=
  ∀ skipped left, body = skipped ++ left → left ≠ [] → ¬ e.Closes (left ++ after)

theorem Clear.nil (e : EmbeddingElement) (after : List Char) : e.Clear [] after := by
  intro skipped left h hne
  exact absurd (List.append_eq_nil_iff.mp h.symm).2 hne

/-- A character is clear before what is clear, unless a tag starts with
it. -/
theorem Clear.cons {c : Char} (hc : ¬ e.Closes (c :: (body ++ after))) (h : e.Clear body after) :
    e.Clear (c :: body) after := by
  intro skipped left hbody hne
  cases skipped with
  | nil =>
    rw [List.nil_append] at hbody
    rwa [← hbody]
  | cons x skipped =>
    rw [List.cons_append, List.cons.injEq] at hbody
    exact h skipped left hbody.2 hne

/-- What is clear stays so without its start. -/
theorem Clear.drop (h : e.Clear (kept ++ rest) after) : e.Clear rest after := by
  intro skipped left hrest hne
  exact h (kept ++ skipped) left (by rw [hrest, List.append_assoc]) hne

/-- The first closing tag of a text, if it has one, ends a clear part. -/
theorem exists_clear (e : EmbeddingElement) (text : List Char) :
    ∃ body after, text = body ++ after ∧ e.Clear body after ∧ (after = [] ∨ e.Closes after) := by
  induction text with
  | nil => exact ⟨[], [], rfl, .nil e [], Or.inl rfl⟩
  | cons c cs ih =>
    by_cases hcloses : e.Closes (c :: cs)
    · exact ⟨[], c :: cs, rfl, .nil e _, Or.inr hcloses⟩
    · obtain ⟨body, after, rfl, hclear, hend⟩ := ih
      exact ⟨c :: body, after, rfl, hclear.cons hcloses, hend⟩

/-- A place where the tag is found ends a clear part of the text. -/
theorem findClosing?_eq_some {k : Nat} (h : e.findClosing? text = some k) :
    ∃ body after, text = body ++ after ∧ byteSize body = k ∧ e.Closes after ∧
      e.Clear body after := by
  induction text generalizing k with
  | nil => simp [findClosing?] at h
  | cons c cs ih =>
    rw [findClosing?] at h
    split at h
    · rename_i hcloses
      simp only [Option.some.injEq] at h
      exact ⟨[], c :: cs, rfl, h, closesAt_iff.mp hcloses, .nil e _⟩
    · rename_i hcloses
      simp only [Option.map_eq_some_iff] at h
      obtain ⟨n, hn, rfl⟩ := h
      obtain ⟨body, after, rfl, rfl, hafter, hclear⟩ := ih hn
      exact ⟨c :: body, after, rfl, by simp, hafter,
        hclear.cons fun hc => hcloses (closesAt_iff.mpr hc)⟩

/-- Where none is found the whole text is clear. -/
theorem clear_of_findClosing?_eq_none (h : e.findClosing? text = none) : e.Clear text [] := by
  induction text with
  | nil => exact .nil e []
  | cons c cs ih =>
    rw [findClosing?] at h
    split at h
    · simp at h
    · rename_i hcloses
      simp only [Option.map_eq_none_iff] at h
      refine (ih h).cons fun hc => hcloses (closesAt_iff.mpr ?_)
      rwa [List.append_nil] at hc

/-! ## Torn tags -/

/-- The start of a spelling, or the spelling and blanks, is a torn name. -/
theorem isTornName_of_start {spelling gap' : List Char} (hgap' : ∀ c ∈ gap', isBlank c = true) :
    ∀ {name : List Char}, spelling.map foldCase = name → text <+: spelling ++ gap' →
      isTornName name text = true := by
  induction spelling generalizing text with
  | nil =>
    rintro name rfl hpre
    cases text with
    | nil => rfl
    | cons c cs =>
      simp only [List.nil_append] at hpre
      simp only [List.map_nil, isTornName, List.all_eq_true]
      exact fun x hx => hgap' x (hpre.subset hx)
  | cons s spelling ih =>
    rintro name rfl hpre
    cases text with
    | nil => rfl
    | cons c cs =>
      rw [List.cons_append, List.cons_prefix_cons] at hpre
      obtain ⟨rfl, hpre⟩ := hpre
      simp only [List.map_cons, isTornName, beq_self_eq_true, Bool.true_and]
      exact ih rfl hpre

/-- So what comes after `</`, up to where the tag breaks off, is a torn name
once its first blanks are dropped. -/
theorem isTornName_dropBlanks {gap spelling gap' left : List Char}
    (hgap : ∀ c ∈ gap, isBlank c = true) (hfold : spelling.map foldCase = e.name.toList)
    (hgap' : ∀ c ∈ gap', isBlank c = true) (h : text ++ left = gap ++ (spelling ++ gap')) :
    isTornName e.name.toList (dropBlanks text) = true := by
  rcases List.append_eq_append_iff.mp h with ⟨u, rfl, -⟩ | ⟨u, rfl, hu⟩
  · -- it breaks off among the first blanks
    have hnil : dropBlanks text = [] := by
      have hdrop : dropBlanks (text ++ []) = dropBlanks [] :=
        dropBlanks_append fun x hx => hgap x (List.mem_append_left u hx)
      rwa [List.append_nil] at hdrop
    rw [hnil]
    cases e <;> rfl
  · -- it breaks off in the name or after it
    have hu' : u <+: spelling ++ gap' := ⟨left, hu.symm⟩
    have hdrop : dropBlanks (gap ++ u) = u := by
      rw [dropBlanks_append hgap]
      obtain ⟨x, xs, rfl, hx⟩ := exists_cons_of_spelling hfold
      cases u with
      | nil => rfl
      | cons y ys =>
        rw [List.cons_append, List.cons_prefix_cons] at hu'
        rw [hu'.1]
        exact dropBlanks_of_head hx
    rw [hdrop]
    exact isTornName_of_start hgap' hfold hu'

/-- **Every tear is recognised.** A start of a closing tag that is not the
whole of it is torn, wherever the tag breaks off. -/
theorem isTorn_of_start (htag : e.IsClosingTag tag) (hpre : text <+: tag) (hne : text ≠ [])
    (hproper : text ≠ tag) : e.isTorn text = true := by
  obtain ⟨gap, spelling, gap', rfl, hgap, hfold, hgap'⟩ := htag
  obtain ⟨more, hmore⟩ := hpre
  -- the last character of the tag is not part of what was read
  have hcut : ∃ left, text ++ left = '<' :: '/' :: (gap ++ (spelling ++ gap')) := by
    rcases List.eq_nil_or_concat more with rfl | ⟨left, c, rfl⟩
    · exact absurd (by simpa using hmore) hproper
    · refine ⟨left, ?_⟩
      have hsplit : (text ++ left) ++ [c] =
          ('<' :: '/' :: (gap ++ (spelling ++ gap'))) ++ ['>'] := by
        rw [List.append_assoc, ← List.concat_eq_append, hmore]
        simp
      exact (List.append_inj' hsplit rfl).1
  obtain ⟨left, hleft⟩ := hcut
  match text, hne with
  | [c], _ =>
    obtain rfl : c = '<' := by simpa using (List.cons.inj hleft).1
    rfl
  | c :: c' :: cs, _ =>
    simp only [List.cons_append, List.cons.injEq] at hleft
    obtain ⟨rfl, rfl, hcs⟩ := hleft
    have hname := isTornName_dropBlanks hgap hfold hgap' hcs
    simpa [isTorn] using hname

theorem endsTorn_of_suffix {skipped left : List Char} (hne : left ≠ [])
    (h : e.isTorn left = true) : e.endsTorn (skipped ++ left) = true := by
  induction skipped with
  | nil =>
    cases left with
    | nil => exact absurd rfl hne
    | cons c cs => simp [endsTorn, h]
  | cons c cs ih => simp [endsTorn, ih]

/-! ## Trimming

Three things can happen to a token, and in each of them no tag starts
inside what is kept: it is cut before the first tag it contains, it
shrinks to one character, or it is kept because the tag neither stands in
it nor is torn at its end. -/

/-- Before the first tag of a token there is none that reaches past the
token: it would reach over the `<` of that tag. -/
theorem Clear.append_of_closes (h : e.Clear body after) (hafter : e.Closes after)
    (rest : List Char) : e.Clear body (after ++ rest) := by
  intro skipped left hbody hne hcloses
  obtain ⟨tag, htag, hpre⟩ := hcloses
  rw [← List.append_assoc] at hpre
  rcases List.prefix_or_prefix_of_prefix hpre (List.prefix_append (left ++ after) rest) with h' | h'
  · exact h skipped left hbody hne ⟨tag, htag, h'⟩
  · obtain ⟨cs, rfl⟩ := hafter.exists_cons
    exact htag.not_reaches_over hne h'

/-- A token that holds no tag and is not torn is clear of the tags that
reach past it. -/
theorem clear_of_not_mayTear (hclear : e.Clear text [])
    (htear : e.mayTear text (!rest.isEmpty) = false) : e.Clear text rest := by
  intro skipped left htext hne hcloses
  obtain ⟨tag, htag, hpre⟩ := hcloses
  have hsole := hclear skipped left htext hne
  rw [List.append_nil] at hsole
  rcases List.prefix_or_prefix_of_prefix hpre (List.prefix_append left rest) with h | h
  · exact hsole ⟨tag, htag, h⟩
  · -- the tag breaks off at the end of the token
    have hproper : left ≠ tag := by
      rintro rfl
      exact hsole ⟨left, htag, List.prefix_refl left⟩
    have hmore : rest ≠ [] := by
      rintro rfl
      rw [List.append_nil] at hpre
      exact hproper (h.eq_of_length_le hpre.length_le)
    have htorn : e.endsTorn text = true := by
      rw [htext]
      exact endsTorn_of_suffix hne (isTorn_of_start htag h hne hproper)
    have hempty : rest.isEmpty = false := by simpa using hmore
    simp [mayTear, htorn, hempty] at htear

section Trim

variable {c d : Cursor} (hc : c.token = []) (htook : c.Took text d)
  (hopen : ¬ e.Closes (text ++ d.rest))
include hc htook hopen

/-- A token that holds the tag is cut before it. The tag does not stand at
its start, which is why the cut leaves something. -/
theorem trim_took_of_holds {k : Nat} (hfind : e.findClosing? text = some k) :
    ∃ kept, kept ≠ [] ∧ c.Took kept (e.trim d) ∧ e.Clear kept (e.trim d).rest := by
  have htoken : d.token = text := by rw [htook.token, hc, List.nil_append]
  unfold trim
  rw [htoken, hfind]
  obtain ⟨body, after, rfl, rfl, hafter, hclear⟩ := findClosing?_eq_some hfind
  have hbody : body ≠ [] := by
    rintro rfl
    exact hopen (hafter.append d.rest)
  have hcut : c.Took body (d.unread (byteSize after)) := htook.unread
  have hrest : (d.unread (byteSize after)).rest = after ++ d.rest := by
    rw [Cursor.unread_append htoken]
  cases hsize : byteSize body with
  | zero =>
    cases body with
    | nil => exact absurd rfl hbody
    | cons ch _ =>
      have := ch.utf8Size_pos
      simp only [byteSize_cons] at hsize
      omega
  | succ n =>
    have hback : byteSize (body ++ after) - (n + 1) = byteSize after := by
      rw [byteSize_append, ← hsize]
      omega
    simp only [hback]
    exact ⟨body, hbody, hcut, hrest ▸ hclear.append_of_closes hafter d.rest⟩

/-- One that may be torn shrinks to its first character, at which no tag
starts. -/
theorem trim_took_of_mayTear (hne : text ≠ []) (hfind : e.findClosing? text = none)
    (htear : e.mayTear text (!d.atEnd) = true) :
    ∃ kept, kept ≠ [] ∧ c.Took kept (e.trim d) ∧ e.Clear kept (e.trim d).rest := by
  have htoken : d.token = text := by rw [htook.token, hc, List.nil_append]
  have hback : d.unread (byteSize text) = { d with token := [], rest := text ++ d.rest } :=
    Cursor.unread_append htoken
  have hcloses : e.closesAt (text ++ d.rest) = false := by
    rw [← Bool.not_eq_true, closesAt_iff]
    exact hopen
  unfold trim
  rw [htoken, hfind]
  cases text with
  | nil => exact absurd rfl hne
  | cons ch cs =>
    simp only [htear, if_true, hback, hcloses, Bool.false_eq_true, if_false]
    rw [Cursor.readBytes_utf8Size rfl]
    refine ⟨[ch], by simp, ⟨htook.before, ?_, ?_, htook.tabSize⟩, ?_⟩
    · simp [Cursor.read, hc]
    · rw [htook.rest]
      simp [Cursor.read]
    · have hopen' : ¬ e.Closes (ch :: ([] ++ (cs ++ d.rest))) := by simpa using hopen
      simpa [Cursor.read] using (Clear.nil e (cs ++ d.rest)).cons hopen'

end Trim

/-- **A trimmed token keeps a character at least, and no closing tag
starts inside what it keeps.** Where it started there was none. -/
theorem trim_took {c d : Cursor} (hc : c.token = []) (hadv : c.Advances d)
    (hopen : ¬ e.Closes c.rest) :
    ∃ kept, kept ≠ [] ∧ c.Took kept (e.trim d) ∧ e.Clear kept (e.trim d).rest := by
  obtain ⟨text, hne, htook⟩ := hadv
  rw [htook.rest] at hopen
  cases hfind : e.findClosing? text with
  | some k => exact trim_took_of_holds hc htook hopen hfind
  | none =>
    cases htear : e.mayTear text (!d.atEnd) with
    | true => exact trim_took_of_mayTear hc htook hopen hne hfind htear
    | false =>
      have htoken : d.token = text := by rw [htook.token, hc, List.nil_append]
      have hkept : e.trim d = d := by
        unfold trim
        rw [htoken, hfind]
        simp only [htear, Bool.false_eq_true, if_false]
      rw [hkept]
      exact ⟨text, hne, htook,
        clear_of_not_mayTear (clear_of_findClosing?_eq_none hfind) htear⟩

end EmbeddingElement

end Mixed

end MixedMarkup
