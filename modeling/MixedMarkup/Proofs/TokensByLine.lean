import MixedMarkup.Proofs.Passages
import MixedMarkup.Proofs.RegionLeaving
/-!
# Constructs over lines, token by token

A construct goes from an opener to a mark, over any number of lines. If a
tokenizer scans for the mark on each of them, the construct has one token on
its first line and at most two on every other: the blanks that the line
begins with, and all the rest (`ScansFor.reads`). So what stands in the
construct does not matter, as long as the mark is not in it. `Reads` tells
the tokens of each line that a run goes over, and `Reads.readOn` says that
the reading of a document has the spans of these tokens.
-/

namespace MixedMarkup

open Cursor Text
open Markup (blankTokens)

/-! ## Lines of a construct -/

/-- Lines with a text after the last one. -/
def endedBy (closer : List Char) : List (List Char) → List (List Char)
  | [] => [closer]
  | [line] => [line ++ closer]
  | line :: next :: lines => line :: endedBy closer (next :: lines)

/-- Lines between an opener and a closer. -/
def bracketed (opener closer : List Char) (content : List (List Char)) : List (List Char) :=
  (endedBy closer content).modifyHead (opener ++ ·)

/-- The tokens of a later line of a construct: blanks first, and then the
rest of the line in the style of the construct. -/
def lineTokens (style : Style) (line : List Char) : List (List Char × Option Style) :=
  blankTokens (line.takeWhile isBlank) ++
    (if dropBlanks line = [] then [] else [(dropBlanks line, some style)])

/-- The tokens of the lines of a construct. The first line is one token. -/
def constructTokens (style : Style) : List (List Char) → List (List (List Char × Option Style))
  | [] => []
  | line :: lines => [(line, some style)] :: lines.map (lineTokens style)

/-- A construct with a mark at its end stands at the place. Its content is
lines without the mark, the text is what comes after it on its last line, and
the other lines are those below. -/
structure ConstructAt (pl : Place) (opener mark : List Char) (content : List (List Char))
    (after : List Char) (below : List (List Char)) : Prop where
  lines : pl.cursor.rest :: pl.later = bracketed opener (mark ++ after) content ++ below
  free : ∀ line ∈ content, ¬ mark <:+: line

variable {style : Style} {gap text line mark after : List Char}

/-- There is a line where lines with a text after them begin. -/
theorem exists_cons_of_endedBy {closer : List Char} {content below lines : List (List Char)}
    (h : lines = endedBy closer content ++ below) : ∃ line later, lines = line :: later := by
  cases content with
  | nil => exact ⟨_, _, h⟩
  | cons line content =>
    cases content with
    | nil => exact ⟨_, _, h⟩
    | cons next content => exact ⟨_, _, h⟩

/-- A construct has a token where it begins. -/
theorem exists_constructTokens_eq (style : Style) (opener closer : List Char)
    (content : List (List Char)) : ∃ first more, first ≠ [] ∧
      constructTokens style (bracketed opener closer content) = first :: more := by
  obtain ⟨line, later, hlines⟩ : ∃ line later, endedBy closer content = line :: later :=
    exists_cons_of_endedBy (List.append_nil _).symm
  refine ⟨[(opener ++ line, some style)], later.map (lineTokens style), by simp, ?_⟩
  rw [bracketed, hlines]
  rfl

/-- No lines are as good as an empty one. -/
theorem exists_endedBy_eq (content : List (List Char)) (hfree : ∀ l ∈ content, ¬ mark <:+: l)
    (hmark : mark ≠ []) :
    ∃ first more, (∀ l ∈ first :: more, ¬ mark <:+: l) ∧
      ∀ closer, endedBy closer content = endedBy closer (first :: more) := by
  cases content with
  | nil => exact ⟨[], [], by simp [hmark], fun closer => rfl⟩
  | cons first more => exact ⟨first, more, hfree, fun closer => rfl⟩

/-- A line begins with its blanks. -/
theorem lineTokens_append (hgap : ∀ x ∈ gap, isBlank x = true)
    (htext : ∀ x ∈ text.head?, isBlank x = false) :
    lineTokens style (gap ++ text) =
      blankTokens gap ++ (if text = [] then [] else [(text, some style)]) := by
  have hdrop : dropBlanks text = text := by
    cases text with
    | nil => rfl
    | cons x text => exact dropBlanks_of_head (htext x rfl)
  rw [lineTokens, takeWhile_eq_of_stop hgap htext, dropBlanks_append hgap, hdrop]

/-- And what comes after them does not. -/
theorem exists_gap (line : List Char) :
    ∃ gap text, line = gap ++ text ∧ (∀ x ∈ gap, isBlank x = true) ∧
      ∀ x ∈ text.head?, isBlank x = false := by
  obtain ⟨gap, hgap, hline⟩ := exists_dropBlanks line
  refine ⟨gap, dropBlanks line, hline, hgap, fun x hx => ?_⟩
  have hstop := List.head?_dropWhile_not isBlank line
  rw [dropBlanks] at hx
  simpa [Option.mem_def.mp hx] using hstop

namespace Tokenizer

variable {σ : Type} {t : Tokenizer σ} {p : σ → Prop}

/-! ## Runs over lines -/

variable (t p) in
/-- A run leads from one place to another over the lines between them, makes
the tokens on each of the lines, and `p` holds of the state after each of
them. -/
inductive Reads : Place → σ → List (List (List Char × Option Style)) → Place → σ → Prop
  | last {c d : Cursor} {later : List (List Char)} {s s' : σ}
      {tokens : List (List Char × Option Style)} :
      t.Yields p c s tokens d s' → Reads ⟨c, later⟩ s [tokens] ⟨d, later⟩ s'
  | next {c d : Cursor} {line : List Char} {later : List (List Char)} {pl : Place} {s s' s'' : σ}
      {tokens : List (List Char × Option Style)} {more : List (List (List Char × Option Style))} :
      t.Yields p c s tokens d s' → d.rest = [] → Reads ⟨.ofLine line, later⟩ s' more pl s'' →
      Reads ⟨c, line :: later⟩ s (tokens :: more) pl s''

namespace Reads

variable {pl pl' : Place} {s s' : σ} {lines : List (List (List Char × Option Style))}

/-- A run starts in every state in which the first call is the same. -/
theorem of_token_eq {s₀ : σ} {first : List (List Char × Option Style)}
    {more : List (List (List Char × Option Style))}
    (htoken : t.token pl.cursor.beginToken s₀ = t.token pl.cursor.beginToken s) (hne : first ≠ [])
    (h : t.Reads p pl s (first :: more) pl' s') : t.Reads p pl s₀ (first :: more) pl' s' := by
  cases h with
  | last hyields => exact .last (hyields.of_token_eq htoken hne)
  | next hyields hd hmore => exact .next (hyields.of_token_eq htoken hne) hd hmore

/-- What a reader of the document sees of the tokens: their lines, texts and
styles. -/
def seen (index : Nat) :
    List (List (List Char × Option Style)) → List (Nat × String × Option Style)
  | [] => []
  | line :: lines =>
    line.map (fun token => (index, String.ofList token.1, token.2)) ++ seen (index + 1) lines

/-- **The reading of a document goes over a run**, and has the spans of its
tokens on the way. -/
theorem readOn (h : t.Reads p pl s lines pl' s') (index : Nat) :
    ∃ index' spans, (spans.map fun sp => (sp.line, sp.text, sp.style)) = seen index lines ∧
      t.readOn index pl s =
        { t.readOn index' pl' s' with spans := spans ++ (t.readOn index' pl' s').spans } := by
  have hseen (index : Nat) (calls : List (Call σ)) :
      ((calls.map (t.callSpan index)).map fun sp => (sp.line, sp.text, sp.style)) =
        (calls.map t.tokenOf).map fun token => (index, String.ofList token.1, token.2) := by
    rw [List.map_map, List.map_map]
    rfl
  induction h generalizing index with
  | last hyields =>
    obtain ⟨calls, hrun, rfl, -⟩ := hyields
    exact ⟨index, _, by rw [hseen, seen, seen, List.append_nil], hrun.readOn_eq index _⟩
  | next hyields hd _ ih =>
    obtain ⟨calls, hrun, rfl, -⟩ := hyields
    obtain ⟨index', spans, hspans, hread⟩ := ih (index + 1)
    refine ⟨index', calls.map (t.callSpan index) ++ spans, ?_, ?_⟩
    · rw [List.map_append, hseen, hspans, seen]
    · rw [hrun.readOn_eq, t.readOn_line hd, hread]
      simp only [List.append_assoc]

end Reads

/-! ## Scanning line by line -/

/-- A call that takes a text makes a run of its own. -/
theorem CallTakes.yields {c : Cursor} {s : σ} {left : List Char} {style : Option Style}
    {Q : σ → Prop} (h : t.CallTakes (· = style) c.beginToken s text Q) (hne : text ≠ [])
    (hQ : ∀ s, Q s → p s) (hrest : c.rest = text ++ left) :
    ∃ d s', t.Yields p c s [(text, style)] d s' ∧ d.rest = left ∧ Q s' := by
  have hyields : t.Yields p c s _ _ _ := .call hne h.took (hQ _ h.state)
  rw [h.style] at hyields
  exact ⟨_, _, hyields, h.took.rest_eq hrest, h.state⟩

variable (t p) in
/-- In a construct the states are in `R`, and a call reads blanks or scans
for the mark, behind which the states are in `Q`. In all of them `p`
holds. -/
structure ScansFor (mark : List Char) (style : Style) (R Q : σ → Prop) : Prop where
  endMark : Scan.IsEndMark mark
  blanks : ∀ (c : Cursor) (s : σ), R s → c.token = [] → (∃ x ∈ c.rest.head?, isBlank x = true) →
    t.CallTakes (· = none) c s (c.rest.takeWhile isBlank) R
  scans : ∀ (c : Cursor) (s : σ), R s → c.token = [] → (∃ x ∈ c.rest.head?, isBlank x = false) →
    t.CallScans (· = some style) mark R Q c s [] c.rest
  inside : ∀ s, R s → p s
  behind : ∀ s, Q s → p s

namespace ScansFor

variable {R Q : σ → Prop} {c : Cursor} {s : σ} {opener rest body : List Char}

/-- A scan takes a line without the mark. -/
theorem yields_open (h : t.ScansFor p mark style R Q)
    (hscans : t.CallScans (· = some style) mark R Q c.beginToken s opener rest)
    (hne : opener ++ rest ≠ []) (hrest : c.rest = opener ++ rest) (hfree : ¬ mark <:+: rest) :
    ∃ d s', t.Yields p c s [(opener ++ rest, some style)] d s' ∧ d.rest = [] ∧ R s' := by
  rw [CallScans, Scan.through_eq_of_not_infix hfree, List.take_length] at hscans
  exact CallTakes.yields (by simpa using hscans) hne h.inside (by simpa using hrest)

/-- A scan takes the last line through the mark. -/
theorem yields_closed (h : t.ScansFor p mark style R Q)
    (hscans : t.CallScans (· = some style) mark R Q c.beginToken s opener rest)
    (hrest : c.rest = opener ++ rest) (hbody : rest = body ++ (mark ++ after))
    (hfree : ¬ mark <:+: body) :
    ∃ d s', t.Yields p c s [(opener ++ (body ++ mark), some style)] d s' ∧ d.rest = after ∧
      Q s' := by
  subst hbody
  rw [CallScans, Scan.through_of_free h.endMark hfree, ← List.append_assoc body,
    ← List.length_append, List.take_left] at hscans
  refine CallTakes.yields (by simpa using hscans) ?_ h.behind (by simp [hrest])
  simp [h.endMark.ne_nil]

/-- The blanks that a line begins with. -/
theorem yields_gap (h : t.ScansFor p mark style R Q) (hs : R s) (hrest : c.rest = gap ++ text)
    (hgap : ∀ x ∈ gap, isBlank x = true) (htext : ∀ x ∈ text.head?, isBlank x = false) :
    ∃ d s', t.Yields p c s (blankTokens gap) d s' ∧ d.rest = text ∧ R s' := by
  cases gap with
  | nil => exact ⟨c, s, .done c s, hrest, hs⟩
  | cons x gap =>
    have htakes := h.blanks c.beginToken s hs rfl ⟨x, by simp [hrest], hgap x (by simp)⟩
    rw [rest_beginToken, hrest, takeWhile_eq_of_stop hgap htext] at htakes
    rw [blankTokens, if_neg (by simp)]
    exact htakes.yields (by simp) h.inside hrest

/-- Where no blank comes first the line is scanned. -/
theorem callScans (h : t.ScansFor p mark style R Q) (hs : R s) (hrest : c.rest = text)
    (hne : text ≠ []) (htext : ∀ x ∈ text.head?, isBlank x = false) :
    t.CallScans (· = some style) mark R Q c.beginToken s [] text := by
  obtain ⟨x, tail, rfl⟩ := List.exists_cons_of_ne_nil hne
  have hscans := h.scans c.beginToken s hs rfl ⟨x, by simp [hrest], htext x rfl⟩
  rwa [rest_beginToken, hrest] at hscans

/-- **A line without the mark.** -/
theorem yields_line (h : t.ScansFor p mark style R Q) (hs : R s) (hrest : c.rest = line)
    (hfree : ¬ mark <:+: line) :
    ∃ d s', t.Yields p c s (lineTokens style line) d s' ∧ d.rest = [] ∧ R s' := by
  obtain ⟨gap, text, rfl, hgap, htext⟩ := exists_gap line
  obtain ⟨d, s₁, hblanks, hd, hs₁⟩ := h.yields_gap hs hrest hgap htext
  rw [lineTokens_append hgap htext]
  by_cases hne : text = []
  · rw [if_pos hne, List.append_nil]
    exact ⟨d, s₁, hblanks, hd.trans hne, hs₁⟩
  · have hfree' : ¬ mark <:+: text := fun hin =>
      hfree (hin.trans (List.suffix_append gap _).isInfix)
    obtain ⟨e, s', hrun, he, hs'⟩ :=
      h.yields_open (h.callScans hs₁ hd hne htext) hne hd hfree'
    rw [if_neg hne]
    exact ⟨e, s', hblanks.trans hrun, he, hs'⟩

/-- **The line with the mark.** -/
theorem yields_lastLine (h : t.ScansFor p mark style R Q) (hs : R s)
    (hrest : c.rest = line ++ (mark ++ after)) (hfree : ¬ mark <:+: line) :
    ∃ d s', t.Yields p c s (lineTokens style (line ++ mark)) d s' ∧ d.rest = after ∧ Q s' := by
  obtain ⟨gap, text, rfl, hgap, htext⟩ := exists_gap line
  have hstop (more : List Char) : ∀ x ∈ (text ++ (mark ++ more)).head?, isBlank x = false := by
    intro x hx
    cases text with
    | nil => exact h.endMark.head?_append more x hx
    | cons y text => exact htext x hx
  have hne (more : List Char) : text ++ (mark ++ more) ≠ [] := by simp [h.endMark.ne_nil]
  rw [List.append_assoc] at hrest
  obtain ⟨d, s₁, hblanks, hd, hs₁⟩ := h.yields_gap hs hrest hgap (hstop after)
  have hfree' : ¬ mark <:+: text := fun hin => hfree (hin.trans (List.suffix_append gap _).isInfix)
  obtain ⟨e, s', hrun, he, hs'⟩ :=
    h.yields_closed (h.callScans hs₁ hd (hne after) (hstop after)) hd rfl hfree'
  have hstop' := hstop []
  have hne' := hne []
  rw [List.append_nil] at hstop' hne'
  rw [List.append_assoc, lineTokens_append hgap hstop', if_neg hne']
  exact ⟨e, s', hblanks.trans hrun, he, hs'⟩

/-- **The later lines** of a construct. -/
theorem reads_lines (h : t.ScansFor p mark style R Q) {first : List Char}
    {more below later : List (List Char)} (hs : R s)
    (hlines : c.rest :: later = endedBy (mark ++ after) (first :: more) ++ below)
    (hfree : ∀ l ∈ first :: more, ¬ mark <:+: l) :
    ∃ d s', t.Reads p ⟨c, later⟩ s ((endedBy mark (first :: more)).map (lineTokens style))
        ⟨d, below⟩ s' ∧ d.rest = after ∧ Q s' := by
  induction more generalizing c s first later with
  | nil =>
    obtain ⟨hrest, rfl⟩ := List.cons.inj hlines
    obtain ⟨d, s', hyields, hd, hs'⟩ := h.yields_lastLine hs hrest (hfree first (by simp))
    exact ⟨d, s', .last hyields, hd, hs'⟩
  | cons next more ih =>
    obtain ⟨hrest, hlater⟩ := List.cons.inj hlines
    obtain ⟨e, s₁, hyields, he, hs₁⟩ := h.yields_line hs hrest (hfree first (by simp))
    obtain ⟨line, later, rfl⟩ := exists_cons_of_endedBy hlater
    obtain ⟨d, s', hreads, hd, hs'⟩ := ih (c := .ofLine line) hs₁ hlater
      fun l hl => hfree l (List.mem_cons_of_mem _ hl)
    exact ⟨d, s', .next hyields he hreads, hd, hs'⟩

/-- **A construct between an opener and a mark**, over any number of lines
without the mark, if the call that reads the opener scans the rest of the line
for the mark. -/
theorem reads (h : t.ScansFor p mark style R Q) {later content below : List (List Char)}
    (hat : ConstructAt ⟨c, later⟩ opener mark content after below) (hopener : opener ≠ [])
    (hscans : ∀ rest, c.rest = opener ++ rest →
      t.CallScans (· = some style) mark R Q c.beginToken s opener rest) :
    ∃ d s', t.Reads p ⟨c, later⟩ s (constructTokens style (bracketed opener mark content))
        ⟨d, below⟩ s' ∧ d.rest = after ∧ Q s' := by
  obtain ⟨first, more, hfree, hcontent⟩ := exists_endedBy_eq content hat.free h.endMark.ne_nil
  have hlines : c.rest :: later = _ := hat.lines
  rw [bracketed, hcontent] at hlines ⊢
  cases more with
  | nil =>
    obtain ⟨hrest, rfl⟩ := List.cons.inj hlines
    obtain ⟨d, s', hyields, hd, hs'⟩ :=
      h.yields_closed (hscans _ hrest) hrest rfl (hfree first (by simp))
    exact ⟨d, s', .last hyields, hd, hs'⟩
  | cons next more =>
    obtain ⟨hrest, hlater⟩ := List.cons.inj hlines
    obtain ⟨e, s₁, hyields, he, hs₁⟩ :=
      h.yields_open (hscans _ hrest) (by simp [hopener]) hrest (hfree first (by simp))
    -- the next line is there, and the construct goes on over it
    obtain ⟨line, later, rfl⟩ := exists_cons_of_endedBy hlater
    obtain ⟨d, s', hreads, hd, hs'⟩ := h.reads_lines (c := .ofLine line) hs₁ hlater
      fun l hl => hfree l (List.mem_cons_of_mem _ hl)
    exact ⟨d, s', .next hyields he hreads, hd, hs'⟩

end ScansFor

end Tokenizer

end MixedMarkup
