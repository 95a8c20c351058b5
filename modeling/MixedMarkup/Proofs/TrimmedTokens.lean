import MixedMarkup.Proofs.Abreast
import MixedMarkup.Proofs.RegionExit
/-!
# Mixed documents — what trimming does to a token

A token that ends before the closing tag comes is kept as it is, unless it
may be torn; one that runs over the tag is cut where the tag starts; and a
torn one shrinks to its first character. Which of these happens is decided
by a few characters: a tag has none of the marks that end comments, strings
and template literals (`IsClosingTag.tagChar`), so a construct that is
closed is never torn (`Sealed`), and one that is open where the tag starts
is scanned past the tag (`Bounded`).
-/

namespace MixedMarkup

open Text

/-! ## Scans that do not find their end -/

namespace Scan

variable {mark text u v : List Char} {quote : Char} {escaped : Bool}

/-- What a scan reads through its mark ends with the mark. -/
theorem exists_take_through (h : (through mark text).closed = true) :
    ∃ u, text.take (through mark text).width = u ++ mark := by
  induction text with
  | nil => simp [through] at h
  | cons c cs ih =>
    rw [through] at h ⊢
    split
    · rename_i hmark
      refine ⟨[], ?_⟩
      rw [List.nil_append]
      exact (List.prefix_iff_eq_take.mp (List.isPrefixOf_iff_prefix.mp hmark)).symm
    · rename_i hmark
      rw [if_neg hmark] at h
      obtain ⟨u, hu⟩ := ih h
      exact ⟨c :: u, by rw [after, List.take_succ_cons, hu, List.cons_append]⟩

/-- A mark that is not found stands nowhere in the text. -/
theorem not_mark_of_open (h : (through mark text).closed = false) {skipped left : List Char}
    (htext : text = skipped ++ left) (hne : left ≠ []) : ¬ mark <+: left := by
  induction skipped generalizing text with
  | nil =>
    rw [List.nil_append] at htext
    subst htext
    cases text with
    | nil => exact absurd rfl hne
    | cons c cs =>
      rw [through] at h
      split at h
      · simp at h
      · rename_i hmark
        rwa [List.isPrefixOf_iff_prefix] at hmark
  | cons c skipped ih =>
    subst htext
    rw [List.cons_append, through] at h
    split at h
    · simp at h
    · exact ih h rfl

/-- **Where the mark does not start in a text, the scan goes over it.** -/
theorem through_skip
    (h : ∀ skipped left, u = skipped ++ left → left ≠ [] → ¬ mark <+: left ++ v) :
    through mark (u ++ v) = ⟨u.length + (through mark v).width, (through mark v).closed⟩ := by
  induction u with
  | nil => simp
  | cons c u ih =>
    have hmark : ¬ mark.isPrefixOf (c :: (u ++ v)) = true := by
      rw [List.isPrefixOf_iff_prefix]
      exact h [] (c :: u) rfl (by simp)
    have htail := ih fun skipped left hu => h (c :: skipped) left (by rw [hu, List.cons_append])
    rw [List.cons_append, through, if_neg hmark, htail, after, List.length_cons]
    simp only [Scan.mk.injEq, and_true]
    omega

theorem quoted_width_le : (quoted quote escaped text).width ≤ text.length := by
  induction text generalizing escaped with
  | nil => exact Nat.le_refl 0
  | cons c cs ih =>
    rw [quoted]
    split
    · simp
    · simpa [after] using ih

/-- What a scan reads through a quote ends with the quote. -/
theorem exists_take_quoted (h : (quoted quote escaped text).closed = true) :
    ∃ u, text.take (quoted quote escaped text).width = u ++ [quote] := by
  induction text generalizing escaped with
  | nil => simp [quoted] at h
  | cons c cs ih =>
    rw [quoted] at h ⊢
    split
    · rename_i hquote
      simp only [Bool.and_eq_true, beq_iff_eq] at hquote
      exact ⟨[], by simp [hquote.1]⟩
    · rename_i hquote
      rw [if_neg hquote] at h
      obtain ⟨u, hu⟩ := ih h
      exact ⟨c :: u, by rw [after, List.take_succ_cons, hu, List.cons_append]⟩

/-- A quote found in a text is found at the same place whatever
follows. -/
theorem quoted_append (h : (quoted quote escaped u).closed = true) (v : List Char) :
    quoted quote escaped (u ++ v) = quoted quote escaped u := by
  induction u generalizing escaped with
  | nil => simp [quoted] at h
  | cons c u ih =>
    rw [quoted] at h
    rw [List.cons_append, quoted, quoted]
    split
    · rfl
    · rename_i hquote
      rw [if_neg hquote] at h
      rw [ih h]

/-- A quote that is not found leaves nothing out, and the scan goes on
behind the text. -/
theorem quoted_skip (h : (quoted quote escaped u).closed = false) :
    (quoted quote escaped u).width = u.length ∧ ∃ escaped', ∀ v,
      quoted quote escaped (u ++ v) =
        ⟨u.length + (quoted quote escaped' v).width, (quoted quote escaped' v).closed⟩ := by
  induction u generalizing escaped with
  | nil => exact ⟨rfl, escaped, fun v => by simp⟩
  | cons c u ih =>
    rw [quoted] at h
    split at h
    · simp at h
    · rename_i hquote
      obtain ⟨hwidth, escaped', hskip⟩ := ih h
      refine ⟨by rw [quoted, if_neg hquote, after, hwidth, List.length_cons], escaped', ?_⟩
      intro v
      rw [List.cons_append, quoted, if_neg hquote, hskip v, after, List.length_cons]
      simp only [Scan.mk.injEq, and_true]
      omega

/-- A text without the quote has no end of the string. -/
theorem quoted_of_not_mem (h : quote ∉ text) (escaped : Bool) :
    (quoted quote escaped text).closed = false := by
  induction text generalizing escaped with
  | nil => rfl
  | cons c cs ih =>
    rw [List.mem_cons, not_or] at h
    have hquote : (c == quote) = false := beq_false_of_ne (Ne.symm h.1)
    rw [quoted, hquote]
    exact ih h.2 _

end Scan

/-- A line has no line feed to stop at. -/
theorem runLength_of_feedless {text : List Char} (h : '\n' ∉ text) :
    runLength (· != '\n') text = text.length := by
  rw [runLength, List.takeWhile_eq_self_iff.mpr]
  intro x hx
  rw [bne_iff_ne]
  rintro rfl
  exact h hx

namespace Mixed

namespace EmbeddingElement

variable {e : EmbeddingElement} {tag text left body after : List Char} {x : Char}

/-! ## The characters of a tag -/

/-- The characters that a closing tag is made of. -/
def TagChar (e : EmbeddingElement) (x : Char) : Prop :=
  x = '<' ∨ x = '/' ∨ x = '>' ∨ isBlank x = true ∨ foldCase x ∈ e.name.toList

instance (e : EmbeddingElement) (x : Char) : Decidable (e.TagChar x) :=
  inferInstanceAs (Decidable (_ ∨ _))

theorem IsClosingTag.tagChar (h : e.IsClosingTag tag) (hx : x ∈ tag) : e.TagChar x := by
  obtain ⟨gap, spelling, gap', rfl, hgap, hfold, hgap'⟩ := h
  simp only [List.mem_cons, List.mem_append, List.not_mem_nil, or_false] at hx
  rcases hx with hx | hx | hx | hx | hx | hx
  · exact .inl hx
  · exact .inr (.inl hx)
  · exact .inr (.inr (.inr (.inl (hgap x hx))))
  · exact .inr (.inr (.inr (.inr (hfold ▸ List.mem_map_of_mem hx))))
  · exact .inr (.inr (.inr (.inl (hgap' x hx))))
  · exact .inr (.inr (.inl hx))

/-- A tag has more than one character. -/
theorem not_closes_singleton : ¬ e.Closes [x] := by
  rintro ⟨_, ⟨gap, spelling, gap', rfl, -, -, -⟩, hpre⟩
  have := hpre.length_le
  simp at this

theorem tagChar_of_isTornName {name : List Char} (hname : ∀ n ∈ name, n ∈ e.name.toList)
    (h : isTornName name text = true) (hx : x ∈ text) : e.TagChar x := by
  induction text generalizing name with
  | nil => simp at hx
  | cons c cs ih =>
    cases name with
    | nil =>
      simp only [isTornName, List.all_eq_true] at h
      exact .inr (.inr (.inr (.inl (h x hx))))
    | cons n name =>
      simp only [isTornName, Bool.and_eq_true, beq_iff_eq] at h
      rcases List.mem_cons.mp hx with rfl | hx
      · exact .inr (.inr (.inr (.inr (h.1 ▸ hname n (List.mem_cons_self ..)))))
      · exact ih (fun n hn => hname n (List.mem_cons_of_mem _ hn)) h.2 hx

/-- **A torn tag starts with `<` and is made of the characters of a tag.** -/
theorem tagChar_of_isTorn (h : e.isTorn text = true) :
    (∃ rest, text = '<' :: rest) ∧ ∀ x ∈ text, e.TagChar x := by
  unfold isTorn at h
  split at h
  · refine ⟨⟨[], rfl⟩, ?_⟩
    intro x hx
    exact .inl (List.mem_singleton.mp hx)
  · rename_i rest
    refine ⟨⟨'/' :: rest, rfl⟩, ?_⟩
    intro x hx
    obtain ⟨gap, hgap, hrest⟩ := exists_dropBlanks rest
    rw [hrest] at hx
    simp only [List.mem_cons, List.mem_append] at hx
    rcases hx with hx | hx | hx | hx
    · exact .inl hx
    · exact .inr (.inl hx)
    · exact .inr (.inr (.inr (.inl (hgap x hx))))
    · exact tagChar_of_isTornName (fun _ hn => hn) h hx
  · simp at h

/-! ## Tokens that cannot be torn -/

theorem exists_isTorn_of_endsInOpener (h : endsInOpener text = true) :
    ∃ skipped left, text = skipped ++ left ∧ e.isTorn left = true := by
  induction text with
  | nil => simp [endsInOpener] at h
  | cons c cs ih =>
    simp only [endsInOpener, Bool.or_eq_true, beq_iff_eq] at h
    rcases h with (h | h) | h
    · exact ⟨[], ['<'], h, rfl⟩
    · exact ⟨[], ['<', '/'], h, by cases e <;> rfl⟩
    · obtain ⟨skipped, left, rfl, hleft⟩ := ih h
      exact ⟨c :: skipped, left, rfl, hleft⟩

theorem exists_isTorn_of_endsTorn (h : e.endsTorn text = true) :
    ∃ skipped left, text = skipped ++ left ∧ e.isTorn left = true := by
  induction text with
  | nil => simp [endsTorn] at h
  | cons c cs ih =>
    simp only [endsTorn, Bool.or_eq_true] at h
    rcases h with h | h
    · exact ⟨[], c :: cs, rfl, h⟩
    · obtain ⟨skipped, left, rfl, hleft⟩ := ih h
      exact ⟨c :: skipped, left, rfl, hleft⟩

/-- The text is never taken for one that ends in a torn tag. -/
def Sealed (e : EmbeddingElement) (text : List Char) : Prop :=
  ∀ moreFollows, e.mayTear text moreFollows = false

/-- **A text is sealed unless it ends in a torn tag.** -/
theorem sealed_of_not_isTorn
    (h : ∀ skipped left, text = skipped ++ left → ¬ e.isTorn left = true) : e.Sealed text := by
  intro moreFollows
  rw [← Bool.not_eq_true]
  intro htear
  have htorn : ∃ skipped left, text = skipped ++ left ∧ e.isTorn left = true := by
    simp only [mayTear, Bool.or_eq_true, Bool.and_eq_true] at htear
    rcases htear with hopener | ⟨-, hends⟩
    · exact exists_isTorn_of_endsInOpener hopener
    · exact exists_isTorn_of_endsTorn hends
  obtain ⟨skipped, left, htext, hleft⟩ := htorn
  exact h skipped left htext hleft

theorem sealed_of_not_mem (h : '<' ∉ text) : e.Sealed text := by
  refine sealed_of_not_isTorn ?_
  intro skipped left htext hleft
  obtain ⟨⟨rest, rfl⟩, -⟩ := tagChar_of_isTorn hleft
  exact h (by simp [htext])

/-- A text that ends in a character that no tag has is sealed. -/
theorem sealed_concat (hx : ¬ e.TagChar x) (text : List Char) : e.Sealed (text ++ [x]) := by
  refine sealed_of_not_isTorn ?_
  intro skipped left htext hleft
  obtain ⟨⟨rest, rfl⟩, hchars⟩ := tagChar_of_isTorn hleft
  -- the last character of the text is one of the torn tag
  have hlast : ('<' :: rest).getLast? = some x := by
    have hgetLast := congrArg List.getLast? htext
    rw [List.getLast?_concat, List.getLast?_append, List.getLast?_cons, Option.some_or] at hgetLast
    rw [List.getLast?_cons, hgetLast]
  exact hx (hchars x (List.mem_of_getLast? hlast))

/-- And so is one that ends as a comment does. -/
theorem sealed_comment (text : List Char) : e.Sealed (text ++ ['*', '/']) := by
  refine sealed_of_not_isTorn ?_
  intro skipped left htext hleft
  obtain ⟨⟨rest, rfl⟩, hchars⟩ := tagChar_of_isTorn hleft
  have hstar : ¬ e.TagChar '*' := by cases e <;> decide
  rcases List.append_eq_append_iff.mp htext with ⟨u, -, hu⟩ | ⟨u, hu, hrest⟩
  · -- the torn tag would start within the mark
    match u, hu with
    | [], hu => simp at hu
    | [_], hu => simp at hu
    | _ :: _ :: _, hu => simp at hu
  · exact hstar (hchars '*' (by rw [hrest]; simp))

/-! ## Constructs that run over the tag -/

/-- **A scan for the end of a construct is bounded by closing tags**: an
end before the tag is found whatever follows, and seals what was read; and
where there is none before the tag, the scan goes over the tag. -/
def Bounded (e : EmbeddingElement) (scan : List Char → Scan) : Prop :=
  ∀ body after : List Char, after = [] ∨ e.Closes after →
    (scan body).closed = true ∧ (scan body).width ≤ body.length ∧
        scan (body ++ after) = scan body ∧ body.take (scan body).width ≠ [] ∧
        (∀ opener, e.Sealed (opener ++ body.take (scan body).width)) ∨
      (scan body).closed = false ∧ (scan body).width = body.length ∧
        (after = [] ∨
          ∃ tail, e.Closes tail ∧
            (body ++ after).take (scan (body ++ after)).width = body ++ tail)

/-- A scan that goes over the tag reads it. -/
theorem exists_take_of_le {n : Nat} (htag : e.IsClosingTag tag) (body rest : List Char)
    (hn : (body ++ tag).length ≤ n) :
    ∃ tail, e.Closes tail ∧ (body ++ (tag ++ rest)).take n = body ++ tail := by
  refine ⟨tag ++ rest.take (n - (body ++ tag).length), ⟨tag, htag, List.prefix_append ..⟩, ?_⟩
  rw [← List.append_assoc, List.take_append, List.take_of_length_le hn, List.append_assoc]

/-- **Comments are bounded by closing tags.** -/
theorem bounded_comment : e.Bounded (Scan.through "*/".toList) := by
  rw [show "*/".toList = ['*', '/'] by decide]
  intro body after hafter
  cases hclosed : (Scan.through ['*', '/'] body).closed with
  | true =>
    obtain ⟨u, hu⟩ := Scan.exists_take_through hclosed
    refine .inl ⟨rfl, Scan.through_width_le, Scan.through_append hclosed after, by simp [hu], ?_⟩
    intro opener
    rw [hu, ← List.append_assoc]
    exact sealed_comment _
  | false =>
    refine .inr ⟨rfl, Scan.through_width_of_open hclosed, ?_⟩
    rcases hafter with hnil | ⟨tag, htag, rest, rfl⟩
    · exact .inl hnil
    refine .inr ?_
    have hskip : Scan.through ['*', '/'] ((body ++ tag) ++ rest) =
        ⟨(body ++ tag).length + (Scan.through ['*', '/'] rest).width,
          (Scan.through ['*', '/'] rest).closed⟩ := by
      refine Scan.through_skip ?_
      intro skipped left hcut hne hmark
      have hstar : '*' ∉ tag := fun hmem => absurd (htag.tagChar hmem) (by cases e <;> decide)
      obtain ⟨more, hmore⟩ := hmark
      -- the mark would start in the body, as there is no star in the tag
      rcases List.append_eq_append_iff.mp hcut with ⟨u, -, htagcut⟩ | ⟨u, hu, hleft⟩
      · cases left with
        | nil => exact hne rfl
        | cons x left =>
          obtain rfl : '*' = x := (List.cons.inj hmore).1
          exact hstar (by simp [htagcut])
      · obtain ⟨gap, spelling, gap', rfl, -, -, -⟩ := htag
        match u, hleft with
        | [], hleft =>
          rw [hleft] at hmore
          simp at hmore
        | [x], hleft =>
          rw [hleft] at hmore
          simp at hmore
        | x :: y :: u, hleft =>
          rw [hleft] at hmore
          simp only [List.cons_append, List.cons.injEq] at hmore
          obtain ⟨rfl, rfl, -⟩ := hmore
          exact Scan.not_mark_of_open hclosed hu (by simp) ⟨u, rfl⟩
    rw [List.append_assoc] at hskip
    rw [hskip]
    exact exists_take_of_le htag body rest (Nat.le_add_right ..)

/-- **And so are strings and template literals**, whose marks are no
characters of a tag. -/
theorem bounded_quoted {quote : Char} (hquote : ¬ e.TagChar quote) :
    e.Bounded (Scan.quoted quote false) := by
  intro body after hafter
  cases hclosed : (Scan.quoted quote false body).closed with
  | true =>
    obtain ⟨u, hu⟩ := Scan.exists_take_quoted hclosed
    refine .inl ⟨rfl, Scan.quoted_width_le, Scan.quoted_append hclosed after, by simp [hu], ?_⟩
    intro opener
    rw [hu, ← List.append_assoc]
    exact sealed_concat hquote _
  | false =>
    obtain ⟨hwidth, escaped, hbody⟩ := Scan.quoted_skip hclosed
    refine .inr ⟨rfl, hwidth, ?_⟩
    rcases hafter with hnil | ⟨tag, htag, rest, rfl⟩
    · exact .inl hnil
    refine .inr ?_
    have hmem : quote ∉ tag := fun hmem => hquote (htag.tagChar hmem)
    obtain ⟨-, escaped', hover⟩ := Scan.quoted_skip (Scan.quoted_of_not_mem hmem escaped)
    refine exists_take_of_le htag body rest ?_
    rw [hbody, hover, List.length_append]
    dsimp only
    omega

/-! ## Trimming -/

/-- No closing tag is found in a text that is clear. -/
theorem findClosing?_eq_none (h : e.Clear text after) : e.findClosing? text = none := by
  cases hfind : e.findClosing? text with
  | none => rfl
  | some k =>
    obtain ⟨body, tail, htext, -, hcloses, -⟩ := findClosing?_eq_some hfind
    obtain ⟨left, hleft⟩ := hcloses.exists_cons
    exact absurd (hcloses.append after) (h body tail htext (by simp [hleft]))

/-- What is clear stays so without its end. -/
theorem Clear.take {kept rest : List Char} (h : e.Clear (kept ++ rest) after) :
    e.Clear kept (rest ++ after) := by
  intro skipped left hkept hne
  have hclear := h skipped (left ++ rest) (by rw [hkept, List.append_assoc]) (by simp [hne])
  rwa [List.append_assoc] at hclear

section Trim

variable {c d : Cursor} (hc : c.token = []) (htook : c.Took text d)
include hc htook

/-- A token without a tag that is not torn is kept. -/
theorem trim_eq_self (hfind : e.findClosing? text = none)
    (htear : e.mayTear text (!d.atEnd) = false) : e.trim d = d := by
  have htoken : d.token = text := by rw [htook.token, hc, List.nil_append]
  unfold trim
  rw [htoken, hfind]
  simp only [htear, Bool.false_eq_true, if_false]

/-- **A torn token shrinks to its first character.** -/
theorem took_trim_of_mayTear {rest : List Char} (htext : text = x :: rest)
    (hopen : ¬ e.Closes c.rest) (hfind : e.findClosing? text = none)
    (htear : e.mayTear text (!d.atEnd) = true) : c.Took [x] (e.trim d) := by
  have htoken : d.token = text := by rw [htook.token, hc, List.nil_append]
  have hback : d.unread (byteSize text) = { d with token := [], rest := text ++ d.rest } :=
    Cursor.unread_append htoken
  have hcloses : e.closesAt (text ++ d.rest) = false := by
    rw [← Bool.not_eq_true, closesAt_iff, ← htook.rest]
    exact hopen
  unfold trim
  rw [htoken, hfind]
  subst htext
  simp only [htear, if_true, hback, hcloses, Bool.false_eq_true, if_false]
  rw [Cursor.readBytes_utf8Size rfl]
  refine ⟨htook.before, ?_, ?_, htook.tabSize⟩
  · simp [Cursor.read, hc]
  · rw [htook.rest]
    simp [Cursor.read]

/-- **A token that runs over the closing tag is cut where the tag
starts.** -/
theorem took_trim_of_past (hbody : body ≠ []) (hclear : e.Clear body after)
    (htext : text = body ++ after) (hafter : e.Closes after) : c.Took body (e.trim d) := by
  have htoken : d.token = text := by rw [htook.token, hc, List.nil_append]
  -- the first tag of the token is the one that ends the clear part
  have hfind : e.findClosing? text = some (byteSize body) := by
    subst htext
    clear htook htoken
    induction body with
    | nil => exact absurd rfl hbody
    | cons ch body ih =>
      have hopen : e.closesAt (ch :: (body ++ after)) = false := by
        rw [← Bool.not_eq_true, closesAt_iff]
        exact hclear [] (ch :: body) rfl (by simp)
      rw [List.cons_append, findClosing?, hopen]
      by_cases hnil : body = []
      · subst hnil
        obtain ⟨left, hleft⟩ := hafter.exists_cons
        have hcloses := closesAt_iff.mpr hafter
        rw [hleft] at hcloses
        simp [hleft, findClosing?, hcloses]
      · have hsplit : e.Clear ([ch] ++ body) after := hclear
        simp [ih hnil hsplit.drop]
  have hpos : byteSize body ≠ 0 := by
    cases body with
    | nil => exact absurd rfl hbody
    | cons ch _ =>
      have := ch.utf8Size_pos
      simp only [byteSize_cons]
      omega
  have hback : byteSize text - byteSize body = byteSize after := by
    rw [htext, byteSize_append]
    omega
  unfold trim
  rw [htoken, hfind]
  obtain ⟨n, hn⟩ := Nat.exists_eq_succ_of_ne_zero hpos
  rw [hn] at hback ⊢
  simp only [hback]
  rw [htext] at htook
  exact htook.unread

end Trim

end EmbeddingElement

end Mixed

end MixedMarkup
