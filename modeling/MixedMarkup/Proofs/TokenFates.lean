import MixedMarkup.Proofs.TrimmedTokens
/-!
# Mixed documents — the fate of an embedded token

A token of an embedded tokenizer is set against the token that the same
tokenizer makes of the line cut before the closing tag. `Fate` lists what
can become of it: it is kept, and is the same token; it runs over the tag
and is cut there, as the line is; it is a run of operators that loses all
but its first operator, and the tokenizer goes on with the others as if it
had never read them; or it ends the line in `<` or `</` and shrinks, with
the state behind it already.
-/

namespace MixedMarkup

open Text

/-! ## Widths that end where a tag starts -/

/-- A text is followed by nothing, or by a `<`. -/
def TagOrEnd (after : List Char) : Prop := after = [] ∨ ∃ more, after = '<' :: more

/-- A width that is found without looking past a `<`, and takes none. -/
def StopsAtTag (width : List Char → Nat) : Prop :=
  ∀ text after, TagOrEnd after →
    width (text ++ after) = width text ∧ width text ≤ text.length ∧ '<' ∉ text.take (width text)

/-- A run that a `<` ends is the same where a tag comes behind the text. -/
theorem TagOrEnd.takeWhile_append {p : Char → Bool} {after : List Char} (h : TagOrEnd after)
    (hp : p '<' = false) (text : List Char) : (text ++ after).takeWhile p = text.takeWhile p := by
  have hnil : after.takeWhile p = [] := by
    rcases h with rfl | ⟨more, rfl⟩
    · rfl
    · simp [hp]
  rw [List.takeWhile_append]
  split
  · rename_i hall
    rw [hnil, List.append_nil]
    exact ((List.takeWhile_prefix p).eq_of_length hall).symm
  · rfl

namespace StopsAtTag

variable {p : Char → Bool} {f g : List Char → Nat}

theorem runLength (hp : p '<' = false) : StopsAtTag (runLength p) := by
  intro text after hafter
  have htake : text.take (MixedMarkup.runLength p text) = text.takeWhile p :=
    (List.prefix_iff_eq_take.mp (List.takeWhile_prefix p)).symm
  refine ⟨?_, (List.takeWhile_prefix p).length_le, ?_⟩
  · rw [MixedMarkup.runLength, MixedMarkup.runLength, hafter.takeWhile_append hp]
  · rw [htake]
    intro hmem
    have := List.mem_takeWhile_imp hmem
    simp [hp] at this

/-- One width after the other. -/
theorem andThen (hf : StopsAtTag f) (hg : StopsAtTag g) :
    StopsAtTag fun text => f text + g (text.drop (f text)) := by
  intro text after hafter
  obtain ⟨hsame, hle, hmem⟩ := hf text after hafter
  obtain ⟨hsame', hle', hmem'⟩ := hg (text.drop (f text)) after hafter
  rw [List.length_drop] at hle'
  refine ⟨?_, by dsimp only; omega, ?_⟩
  · simp only [hsame, List.drop_append_of_le_length hle, hsame']
  · rw [List.take_add, List.mem_append, not_or]
    exact ⟨hmem, hmem'⟩

/-- A width behind a first character. -/
theorem cons (hf : StopsAtTag f) {first : Char} (hfirst : first ≠ '<') (text : List Char)
    {after : List Char} (hafter : TagOrEnd after) :
    1 + f (text ++ after) = 1 + f text ∧ 1 + f text ≤ (first :: text).length ∧
      '<' ∉ (first :: text).take (1 + f text) := by
  obtain ⟨hsame, hle, hmem⟩ := hf text after hafter
  refine ⟨by rw [hsame], by rw [List.length_cons]; omega, ?_⟩
  rw [Nat.add_comm, List.take_succ_cons, List.mem_cons, not_or]
  exact ⟨Ne.symm hfirst, hmem⟩

end StopsAtTag

theorem Cursor.read_zero (c : Cursor) : c.read 0 = c := by
  simp [Cursor.read]

/-- The cursor on its line when that is cut behind `body`. -/
def Cursor.cutTo (body : List Char) (c : Cursor) : Cursor := { c with rest := body }

namespace Mixed

namespace EmbeddingElement

/-- What is ahead where a token starts in a region: `body`, and then the
closing tag or the end of the line. -/
structure Ahead (e : EmbeddingElement) (c : Cursor) (body after : List Char) : Prop where
  token : c.token = []
  rest : c.rest = body ++ after
  ne : body ≠ []
  clear : e.Clear body after
  ends : after = [] ∨ e.Closes after

/-- What becomes of the token `r` in a region, where `r'` is the token on
the line that is cut behind `body`. -/
inductive Fate {σ : Type} (e : EmbeddingElement) (t : Tokenizer σ) (c : Cursor)
    (body after : List Char) (r r' : Step σ) : Prop
  | kept {text left : List Char} : body = text ++ left → text ≠ [] →
      c.Took text (e.trim r.cursor) → (c.cutTo body).Took text r'.cursor →
      r'.style = r.style → r'.state = r.state → Fate e t c body after r r'
  | cut : e.Closes after → c.Took body (e.trim r.cursor) → (c.cutTo body).Took body r'.cursor →
      r'.style = r.style → Fate e t c body after r r'
  | split {first : Char} {text left : List Char} : body = first :: (text ++ left) → text ≠ [] →
      c.Took [first] (e.trim r.cursor) → (c.cutTo body).Took (first :: text) r'.cursor →
      r'.style = r.style → r'.state = r.state →
      (∀ d : Cursor, d.before ≠ [] → d.token = [] → d.rest = text ++ left →
        d.Took text (t.token d r.state).cursor ∧ (t.token d r.state).style = r.style ∧
          (t.token d r.state).state = r.state) → Fate e t c body after r r'
  | shrunk {first : Char} {text : List Char} : after = [] → body = first :: text →
      endsInOpener body = true → c.Took [first] (e.trim r.cursor) →
      (c.cutTo body).Took body r'.cursor → r'.state = r.state → Fate e t c body after r r'

theorem endsInOpener_append (left : List Char) {text : List Char} (h : endsInOpener text = true) :
    endsInOpener (left ++ text) = true := by
  induction left with
  | nil => exact h
  | cons c left ih => simp [endsInOpener, ih]

/-- A text that ends in an opener ends in `<` or in `</`. -/
theorem suffix_of_endsInOpener {text : List Char} (h : endsInOpener text = true) :
    ['<'] <:+ text ∨ ['<', '/'] <:+ text := by
  induction text with
  | nil => simp [endsInOpener] at h
  | cons c text ih =>
    simp only [endsInOpener, Bool.or_eq_true, beq_iff_eq] at h
    rcases h with (h | h) | h
    · exact .inl (h ▸ List.suffix_rfl)
    · exact .inr (h ▸ List.suffix_rfl)
    · have hcons := List.suffix_cons c text
      exact (ih h).imp (·.trans hcons) (·.trans hcons)

namespace Ahead

variable {σ : Type} {e : EmbeddingElement} {t : Tokenizer σ} {c : Cursor}
variable {body after text left : List Char} {r r' : Step σ}

theorem not_closes (h : e.Ahead c body after) : ¬ e.Closes c.rest := by
  rw [h.rest]
  exact h.clear [] body rfl h.ne

/-- What comes behind the body, if anything does, begins with `<`. -/
theorem stop (h : e.Ahead c body after) : TagOrEnd after := h.ends.imp id Closes.exists_cons

/-- Reading within the body takes the same of both lines. -/
theorem took_read (h : e.Ahead c body after) {n : Nat} (hn : n ≤ body.length) :
    c.Took (body.take n) (c.read n) ∧
      (c.cutTo body).Took (body.take n) ((c.cutTo body).read n) := by
  have htook := Cursor.took_read n c
  rw [h.rest, List.take_append_of_le_length hn] at htook
  exact ⟨htook, Cursor.took_read n (c.cutTo body)⟩

/-- A line keeps its indentation when it is cut. -/
theorem indentation_cutTo (h : e.Ahead c body after) :
    (c.cutTo body).indentation = c.indentation := by
  have htake := h.stop.takeWhile_append (p := isBlank) (by decide) (c.before ++ body)
  have hline : c.line = (c.before ++ body) ++ after := by
    rw [Cursor.line, h.token, h.rest, List.nil_append, List.append_assoc]
  have hline' : (c.cutTo body).line = c.before ++ body := by
    rw [Cursor.line, Cursor.cutTo, h.token, List.nil_append]
  rw [Cursor.indentation, Cursor.indentation, hline, hline', leadingWidth, leadingWidth, htake]
  rfl

/-- **A sealed token before the tag is kept.** -/
theorem kept_of_sealed (h : e.Ahead c body after) (hbody : body = text ++ left) (hne : text ≠ [])
    (htook : c.Took text r.cursor) (htook' : (c.cutTo body).Took text r'.cursor)
    (hsealed : e.Sealed text) (hstyle : r'.style = r.style) (hstate : r'.state = r.state) :
    e.Fate t c body after r r' := by
  have hclear := h.clear
  rw [hbody] at hclear
  have htrim : e.trim r.cursor = r.cursor :=
    trim_eq_self h.token htook (findClosing?_eq_none hclear.take) (hsealed _)
  exact .kept hbody hne (htrim.symm ▸ htook) htook' hstyle hstate

/-- **And so is a token of one character.** -/
theorem kept_of_single (h : e.Ahead c body after) {first : Char} (hbody : body = first :: left)
    (htook : c.Took [first] r.cursor) (htook' : (c.cutTo body).Took [first] r'.cursor)
    (hstyle : r'.style = r.style) (hstate : r'.state = r.state) :
    e.Fate t c body after r r' := by
  have hcut : body = [first] ++ left := hbody
  have hclear := h.clear
  rw [hcut] at hclear
  have hfind := findClosing?_eq_none hclear.take
  have htrim : c.Took [first] (e.trim r.cursor) := by
    cases htear : e.mayTear [first] (!r.cursor.atEnd) with
    | true => exact took_trim_of_mayTear h.token htook rfl h.not_closes hfind htear
    | false => rwa [trim_eq_self h.token htook hfind htear]
  exact .kept hcut (by simp) htrim htook' hstyle hstate

/-- Reading characters of the body, one of them or some without a `<`,
makes a token that is kept. -/
theorem kept_of_read (h : e.Ahead c body after) {n : Nat} (hpos : 0 < n) (hle : n ≤ body.length)
    (hn : n = 1 ∨ '<' ∉ body.take n) (hr : r.cursor = c.read n)
    (hr' : r'.cursor = (c.cutTo body).read n) (hstyle : r'.style = r.style)
    (hstate : r'.state = r.state) : e.Fate t c body after r r' := by
  obtain ⟨htook, htook'⟩ := h.took_read hle
  obtain ⟨first, rest, hbody⟩ := List.exists_cons_of_ne_nil h.ne
  rw [← hr] at htook
  rw [← hr'] at htook'
  rcases hn with rfl | hn
  · have htake : body.take 1 = [first] := by rw [hbody]; rfl
    rw [htake] at htook htook'
    exact h.kept_of_single hbody htook htook' hstyle hstate
  · have hne : body.take n ≠ [] := by
      rw [hbody, List.take_cons hpos]
      simp
    exact h.kept_of_sealed (List.take_append_drop n body).symm hne htook htook'
      (sealed_of_not_mem hn) hstyle hstate

/-- Blanks are read alike from both lines. -/
theorem readBlanks?_cutTo (h : e.Ahead c body after) :
    c.readBlanks? = none ∧ (c.cutTo body).readBlanks? = none ∨
      ∃ n, 0 < n ∧ n ≤ body.length ∧ '<' ∉ body.take n ∧ c.readBlanks? = some (c.read n) ∧
        (c.cutTo body).readBlanks? = some ((c.cutTo body).read n) := by
  obtain ⟨first, rest, hbody⟩ := List.exists_cons_of_ne_nil h.ne
  have hpeek : c.peek? = some first := by rw [Cursor.peek?, h.rest, hbody]; rfl
  have hpeek' : (c.cutTo body).peek? = some first := by rw [Cursor.peek?, Cursor.cutTo, hbody]; rfl
  have hblank : isBlank '<' = false := by decide
  obtain ⟨hsame, hle, hmem⟩ := StopsAtTag.runLength hblank body after h.stop
  have hskip : (c.rest.takeWhile isBlank).length = runLength isBlank body := by
    rw [h.rest]
    exact hsame
  simp only [Cursor.readBlanks?, Cursor.readWhile?, Cursor.readIf?, hpeek, hpeek']
  cases hfirst : isBlank first with
  | false => exact .inl ⟨by simp, by simp⟩
  | true =>
    refine .inr ⟨runLength isBlank body, ?_, hle, hmem, ?_, ?_⟩
    · simp [runLength, hbody, hfirst]
    · simp only [if_true, Cursor.skip, hskip]
    · simp only [if_true, Cursor.skip]
      rfl

/-- **A token that takes the whole body** runs over the tag and is cut
there; or it ends the line, and is kept unless the line ends in an
opener. -/
theorem fate_of_open (h : e.Ahead c body after) (htook' : (c.cutTo body).Took body r'.cursor)
    (hstyle : r'.style = r.style)
    (hafter : after = [] ∧ c.Took body r.cursor ∧ r'.state = r.state ∨
      ∃ tail, e.Closes tail ∧ c.Took (body ++ tail) r.cursor) : e.Fate t c body after r r' := by
  rcases hafter with ⟨rfl, htook, hstate⟩ | ⟨tail, htail, htook⟩
  · have hfind := findClosing?_eq_none h.clear
    have hend : r.cursor.atEnd = true := Cursor.atEnd_iff.mpr (htook.rest_eq h.rest)
    cases hopener : endsInOpener body with
    | true =>
      obtain ⟨first, rest, hbody⟩ := List.exists_cons_of_ne_nil h.ne
      have htear : e.mayTear body (!r.cursor.atEnd) = true := by simp [mayTear, hopener]
      exact .shrunk rfl hbody hopener
        (took_trim_of_mayTear h.token htook hbody h.not_closes hfind htear) htook' hstate
    | false =>
      have htear : e.mayTear body (!r.cursor.atEnd) = false := by simp [mayTear, hopener, hend]
      have htrim := trim_eq_self h.token htook hfind htear
      exact .kept (List.append_nil body).symm h.ne (htrim.symm ▸ htook) htook' hstyle hstate
  · have hafter : after = tail ++ r.cursor.rest := by
      have hrest := htook.rest
      rw [h.rest, List.append_assoc] at hrest
      exact List.append_cancel_left hrest
    have hclear : e.Clear body tail := by
      intro skipped left hbody hne hcloses
      refine h.clear skipped left hbody hne ?_
      rw [hafter, ← List.append_assoc]
      exact hcloses.append _
    refine .cut (hafter ▸ htail.append _) ?_ htook' hstyle
    exact took_trim_of_past h.token htook h.ne hclear rfl htail

/-- **A construct with an end**, read from behind its opener to its end or
as far as the line goes. -/
theorem fate_of_scan (h : e.Ahead c body after) {scan : List Char → Scan} (hscan : e.Bounded scan)
    {opener : List Char} (hbody : body = opener ++ left) (style : Option Style) (state : Bool → σ)
    (hr : r = ⟨style, (c.read opener.length).read (scan (c.read opener.length).rest).width,
      state (scan (c.read opener.length).rest).closed⟩)
    (hr' : r' = ⟨style, ((c.cutTo body).read opener.length).read
        (scan ((c.cutTo body).read opener.length).rest).width,
      state (scan ((c.cutTo body).read opener.length).rest).closed⟩) :
    e.Fate t c body after r r' := by
  obtain ⟨hopen, hopen'⟩ := h.took_read (n := opener.length) (by simp [hbody])
  have htake : body.take opener.length = opener := by simp [hbody]
  rw [htake] at hopen hopen'
  have hrest : (c.read opener.length).rest = left ++ after :=
    hopen.rest_eq (by rw [h.rest, hbody, List.append_assoc])
  have hrest' : ((c.cutTo body).read opener.length).rest = left := hopen'.rest_eq hbody
  have htook := hopen.trans
    (Cursor.took_read (scan (left ++ after)).width (c.read opener.length))
  have htook' := hopen'.trans
    (Cursor.took_read (scan left).width ((c.cutTo body).read opener.length))
  rw [hrest] at hr htook
  rw [hrest'] at hr' htook'
  rcases hscan left after h.ends with
    ⟨hclosed, hwidth, hsame, hne, hsealed⟩ | ⟨hclosed, hwidth, hafter⟩
  · rw [hsame, List.take_append_of_le_length hwidth] at htook
    have hcut : body = (opener ++ left.take (scan left).width) ++ left.drop (scan left).width := by
      rw [hbody, List.append_assoc, List.take_append_drop]
    refine h.kept_of_sealed hcut (by simp [hne]) ?_ (hr' ▸ htook') (hsealed opener) ?_ ?_
    · rw [hr, hsame]
      exact htook
    · rw [hr, hr']
    · rw [hr, hr', hsame]
  · rw [hwidth, List.take_length, ← hbody] at htook'
    refine h.fate_of_open (by rw [hr', hwidth]; exact htook') (by rw [hr, hr']) ?_
    rcases hafter with rfl | ⟨tail, htail, htake⟩
    · rw [List.append_nil, hwidth, List.take_length, ← hbody] at htook
      refine .inl ⟨rfl, ?_, ?_⟩
      · rw [hr, List.append_nil, hwidth]
        exact htook
      · rw [hr, hr', List.append_nil]
    · rw [htake, ← List.append_assoc, ← hbody] at htook
      exact .inr ⟨tail, htail, hr ▸ htook⟩

end Ahead

end EmbeddingElement

end Mixed

end MixedMarkup
