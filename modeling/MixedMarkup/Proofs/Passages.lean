import MixedMarkup.Proofs.Abreast
import MixedMarkup.Proofs.OpenConstructs
/-!
# Passages over a text

A text that a tokenizer reads may go over several lines. A place is a cursor
with the lines after its own, a passage leads from one place and state to
another by calls and by moves to the next line, and the text between the two
is what the tokenizer has read, with a line feed for each move. So a
tokenizer can be specified by the texts that carry its states: `Carries` says
that a text takes every state with one property to a state with another,
whatever lines it is broken into. Such specifications compose (`Carries.seq`),
and there is one for each way of reading a piece of text: in one call
(`Carries.of_call`), in calls that each read some of a run
(`Carries.of_run`), and through a mark (`Carries.of_mark`).
-/

namespace MixedMarkup

open Cursor Text

/-- A place in a document: a cursor on a line, and the lines after that one. -/
structure Place where
  cursor : Cursor
  later : List (List Char)

namespace Place

/-- The text of the later lines, each after the line feed before it. -/
def below (pl : Place) : List Char := pl.later.flatMap ('\n' :: ·)

/-- The text not yet read. -/
def ahead (pl : Place) : List Char := pl.cursor.rest ++ pl.below

/-- The later lines begin with a line feed. -/
theorem head?_below (pl : Place) : ∀ x ∈ pl.below.head?, x = '\n' := by
  intro x hx
  unfold below at hx
  cases hlater : pl.later with
  | nil => simp [hlater] at hx
  | cons line lines =>
    simp only [hlater, List.flatMap_cons, List.cons_append, List.head?_cons, Option.mem_def,
      Option.some.injEq] at hx
    exact hx.symm

theorem ahead_eq_nil {pl : Place} (h : pl.ahead = []) : pl.cursor.rest = [] ∧ pl.later = [] := by
  obtain ⟨hrest, hbelow⟩ := List.append_eq_nil_iff.mp h
  refine ⟨hrest, ?_⟩
  cases hlater : pl.later with
  | nil => rfl
  | cons line lines => simp [below, hlater] at hbelow

end Place

/-! ## Texts that are broken into lines -/

namespace Text

variable {rest more text after : List Char}

/-- **A text without line feeds** that is ahead is on the line. -/
theorem exists_left_of_no_feed (hmore : ∀ x ∈ more.head?, x = '\n') (htext : '\n' ∉ text)
    (h : rest ++ more = text ++ after) : ∃ left, rest = text ++ left ∧ after = left ++ more := by
  rcases List.append_eq_append_iff.mp h with ⟨left, htextEq, hmoreEq⟩ | hleft
  · cases left with
    | nil => exact ⟨[], by simpa using htextEq.symm, by simpa using hmoreEq.symm⟩
    | cons x left =>
      obtain rfl : x = '\n' := hmore x (by simp [hmoreEq])
      exact absurd (by simp [htextEq]) htext
  · exact hleft

/-- **What is read of a run** is the first part of it, since the run stops
where it does. -/
theorem exists_tail_of_run {q : Char → Bool} {read : List Char} (hread : ∀ x ∈ read, q x = true)
    (hafter : ∀ x ∈ after.head?, q x = false) (h : read ++ rest = text ++ after) :
    ∃ tail, text = read ++ tail ∧ rest = tail ++ after := by
  rcases List.append_eq_append_iff.mp h with ⟨tail, htail, hrest⟩ | ⟨extra, hextra, hrest⟩
  · exact ⟨tail, htail, hrest⟩
  · cases extra with
    | nil => exact ⟨[], by simpa using hextra.symm, by simpa using hrest.symm⟩
    | cons x extra =>
      have hx := hread x (by simp [hextra])
      rw [hafter x (by simp [hrest])] at hx
      simp at hx

end Text

namespace Scan

/-- A mark that can be looked for line by line: it has no blanks, and its last
character is in it only once. -/
structure IsEndMark (mark : List Char) : Prop where
  split : ∃ init last, mark = init ++ [last] ∧ last ∉ init
  blanks : ∀ x ∈ mark, isBlank x = false

namespace IsEndMark

variable {mark : List Char}

theorem ne_nil (h : IsEndMark mark) : mark ≠ [] := by
  obtain ⟨init, last, rfl, -⟩ := h.split
  simp

theorem head?_append (h : IsEndMark mark) (text : List Char) :
    ∀ x ∈ (mark ++ text).head?, isBlank x = false := by
  intro x hx
  obtain ⟨y, mark, rfl⟩ := List.exists_cons_of_ne_nil h.ne_nil
  obtain rfl : y = x := by simpa using hx
  exact h.blanks y (by simp)

/-- The line goes on where a mark is ahead, since no mark begins with a line
feed. -/
theorem rest_ne_nil (h : IsEndMark mark) {pl : Place} {after : List Char}
    (hahead : pl.ahead = mark ++ after) : pl.cursor.rest ≠ [] := by
  intro hrest
  obtain ⟨x, tail, rfl⟩ := List.exists_cons_of_ne_nil h.ne_nil
  have hbelow : pl.below = x :: (tail ++ after) := by simpa [Place.ahead, hrest] using hahead
  have hblank := h.blanks x (by simp)
  rw [pl.head?_below x (by simp [hbelow])] at hblank
  exact absurd hblank (by decide)

end IsEndMark

variable {mark body rest more text : List Char}

/-- **A text free of a mark** is taken to its end. -/
theorem through_eq_of_not_infix (hfree : ¬ mark <:+: text) :
    through mark text = ⟨text.length, false⟩ := by
  have hopen := through_of_not_infix hfree
  have hwidth := through_width_of_open hopen
  generalize through mark text = scan at hopen hwidth
  obtain ⟨width, closed⟩ := scan
  simp only at hopen hwidth
  rw [hopen, hwidth]

/-- A scan leaves nothing out only where there is nothing to take. -/
theorem append_take_through_ne_nil {opener : List Char} (hmark : mark ≠ [])
    (hne : opener ++ rest ≠ []) : opener ++ rest.take (through mark rest).width ≠ [] := by
  intro hnil
  obtain ⟨rfl, htake⟩ := List.append_eq_nil_iff.mp hnil
  have hpos := through_width_pos hmark hne
  rw [List.take_eq_nil_iff] at htake
  rcases htake with hzero | hempty
  · simp only [List.nil_append] at hpos
    omega
  · exact hne hempty

/-- **A text free of a mark and then the mark** are what a scan takes. -/
theorem through_of_free (h : IsEndMark mark) (hfree : ¬ mark <:+: body) (text : List Char) :
    through mark (body ++ (mark ++ text)) = ⟨body.length + mark.length, true⟩ := by
  have hne := h.ne_nil
  obtain ⟨init, last, hmark, hlast⟩ := h.split
  induction body with
  | nil =>
    obtain ⟨x, mark, rfl⟩ := List.exists_cons_of_ne_nil hne
    have hstarts : (x :: mark).isPrefixOf (x :: (mark ++ text)) = true := by
      simp [List.isPrefixOf_iff_prefix]
    simp [through, hstarts]
  | cons b body ih =>
    have hnot : ¬ mark.isPrefixOf (b :: (body ++ (mark ++ text))) = true := by
      rw [List.isPrefixOf_iff_prefix]
      rintro ⟨left, hleft⟩
      rw [← List.cons_append] at hleft
      rcases List.append_eq_append_iff.mp hleft with ⟨tail, hbody, -⟩ | ⟨tail, htail, hextra⟩
      · exact hfree ⟨[], tail, by simpa using hbody.symm⟩
      · -- the mark would end within the mark that follows, before its last character
        obtain ⟨y, tail, rfl⟩ : ∃ y ys, tail = y :: ys := by
          cases tail with
          | nil => exact absurd ⟨[], [], by simpa using htail⟩ hfree
          | cons y ys => exact ⟨y, ys, rfl⟩
        have hshort : (y :: tail).length ≤ init.length := by
          have hlen := congrArg List.length htail
          simp only [hmark, List.length_append, List.length_cons, List.length_nil] at hlen ⊢
          omega
        have hinit : (y :: tail) <+: init := by
          have hstart : init <+: mark ++ text := by
            rw [hmark, List.append_assoc]
            exact List.prefix_append _ _
          exact List.prefix_of_prefix_length_le ⟨left, hextra.symm⟩ hstart hshort
        have hend : last ∈ y :: tail := by
          have hgetLast := congrArg List.getLast? htail
          rw [hmark, List.getLast?_concat, List.getLast?_append_of_ne_nil _ (by simp)] at hgetLast
          exact List.mem_of_getLast? hgetLast.symm
        exact hlast (hinit.subset hend)
    have hbody : ¬ mark <:+: body := fun h => hfree (h.trans (List.suffix_cons b body).isInfix)
    rw [List.cons_append, through, if_neg hnot, ih hbody]
    simp only [Scan.after, List.length_cons, Nat.add_right_comm]

/-- **What a scan makes of a line** on which a text free of the mark stands,
or the first part of one: it goes through the mark, or to the end of the
line. -/
theorem through_cases (hmark : IsEndMark mark) (hfree : ¬ mark <:+: body)
    (hmore : ∀ x ∈ more.head?, x = '\n') (h : rest ++ more = body ++ (mark ++ text)) :
    (∃ left, rest = body ++ (mark ++ left) ∧ text = left ++ more ∧
        through mark rest = ⟨body.length + mark.length, true⟩) ∨
      ∃ body', body = rest ++ body' ∧ more = body' ++ (mark ++ text) ∧
        through mark rest = ⟨rest.length, false⟩ := by
  have hclosed : ∀ left, rest = body ++ (mark ++ left) →
      through mark rest = ⟨body.length + mark.length, true⟩ := by
    rintro left rfl
    exact through_of_free hmark hfree left
  rw [← List.append_assoc] at h
  rcases List.append_eq_append_iff.mp h with ⟨extra, hextra, hmoreEq⟩ | ⟨left, hleft, htext⟩
  · cases extra with
    | nil =>
      have hrest : rest = body ++ (mark ++ []) := by simpa using hextra.symm
      exact .inl ⟨[], hrest, by simpa using hmoreEq.symm, hclosed [] hrest⟩
    | cons x extra =>
      obtain rfl : x = '\n' := hmore x (by simp [hmoreEq])
      rcases List.append_eq_append_iff.mp hextra with ⟨tail, -, htail⟩ | ⟨body', hbody, htail⟩
      · exact absurd (hmark.blanks '\n' (by simp [htail])) (by decide)
      · right
        refine ⟨body', hbody, ?_, through_eq_of_not_infix fun hin => ?_⟩
        · rw [hmoreEq, htail, List.append_assoc]
        · exact hfree (hin.trans ⟨[], body', by simp [hbody]⟩)
  · have hrest : rest = body ++ (mark ++ left) := by rw [hleft, List.append_assoc]
    exact .inl ⟨left, hrest, htext, hclosed left hrest⟩

end Scan

namespace Tokenizer

variable {σ : Type} (t : Tokenizer σ)

/-! ## Reading on from a place -/

/-- Read from a place to the end of the document. -/
def readOn (index : Nat) (pl : Place) (state : σ) : Reading σ :=
  let first := t.readFrom index pl.cursor state
  match first.failure with
  | some _ => first
  | none =>
    let tail := t.readLines (index + 1) pl.later first.state
    { tail with spans := first.spans ++ tail.spans }

/-- From the start of a line that is to read the line and those after it. -/
theorem readOn_ofLine (index : Nat) (line : List Char) (lines : List (List Char)) (state : σ) :
    t.readOn index ⟨.ofLine line, lines⟩ state = t.readLines index (line :: lines) state := rfl

variable {t} in
/-- **The reading goes through a run** on the line. -/
theorem Run.readOn_eq {c d : Cursor} {s s' : σ} {calls : List (Call σ)} (h : t.Run c s calls d s')
    (index : Nat) (later : List (List Char)) :
    t.readOn index ⟨c, later⟩ s =
      { t.readOn index ⟨d, later⟩ s' with
        spans := calls.map (t.callSpan index) ++ (t.readOn index ⟨d, later⟩ s').spans } := by
  simp only [readOn, h.readFrom_eq index]
  generalize t.readFrom index d s' = line
  obtain ⟨spans, state, failure⟩ := line
  cases failure with
  | some failure => rfl
  | none => simp only [List.append_assoc]

/-- A call goes first. -/
theorem readOn_call {c : Cursor} {s : σ}
    (h : c.beginToken.Advances (t.token c.beginToken s).cursor) (index : Nat)
    (later : List (List Char)) :
    t.readOn index ⟨c, later⟩ s =
      let tail := t.readOn index ⟨(t.token c.beginToken s).cursor, later⟩
        (t.token c.beginToken s).state
      { tail with spans := t.callSpan index ⟨c.beginToken, s⟩ :: tail.spans } :=
  (Run.single h).readOn_eq index later

/-- At the end of a line the next one is read. -/
theorem readOn_line {c : Cursor} (h : c.rest = []) (index : Nat) (line : List Char)
    (later : List (List Char)) (s : σ) :
    t.readOn index ⟨c, line :: later⟩ s = t.readOn (index + 1) ⟨.ofLine line, later⟩ s := by
  rw [readOn_ofLine]
  simp only [readOn, t.readFrom_of_atEnd h, List.nil_append]

/-- At the end of the document there is nothing to read. -/
theorem readOn_end {pl : Place} (h : pl.ahead = []) (index : Nat) (s : σ) :
    t.readOn index pl s = ⟨[], s, none⟩ := by
  obtain ⟨hrest, hlater⟩ := Place.ahead_eq_nil h
  simp only [readOn, t.readFrom_of_atEnd hrest, hlater, readLines, List.append_nil]

/-! ## Passages -/

/-- Calls, each of which moves the cursor forward and makes a token with a
style in `p`, and moves to the next line lead from one place to another. -/
inductive Passage (p : Option Style → Prop) : Place → σ → Place → σ → Prop
  | done (pl : Place) (s : σ) : Passage p pl s pl s
  | call {c : Cursor} {later : List (List Char)} {pl : Place} {s s' : σ} :
      c.beginToken.Advances (t.token c.beginToken s).cursor →
      p (t.token c.beginToken s).style →
      Passage p ⟨(t.token c.beginToken s).cursor, later⟩ (t.token c.beginToken s).state pl s' →
      Passage p ⟨c, later⟩ s pl s'
  | line {c : Cursor} {line : List Char} {later : List (List Char)} {pl : Place} {s s' : σ} :
      c.rest = [] → Passage p ⟨.ofLine line, later⟩ s pl s' →
      Passage p ⟨c, line :: later⟩ s pl s'

namespace Passage

variable {t} {p : Option Style → Prop} {pl pl' pl'' : Place} {s s' s'' : σ}

theorem trans (h : t.Passage p pl s pl' s') (h' : t.Passage p pl' s' pl'' s'') :
    t.Passage p pl s pl'' s'' := by
  induction h with
  | done => exact h'
  | call hadv hp _ ih => exact .call hadv hp (ih h')
  | line hrest _ ih => exact .line hrest (ih h')

/-- One call is a passage. -/
theorem single {c : Cursor} {text : List Char} (hne : text ≠ [])
    (htook : c.beginToken.Took text (t.token c.beginToken s).cursor)
    (hp : p (t.token c.beginToken s).style) (later : List (List Char)) :
    t.Passage p ⟨c, later⟩ s ⟨(t.token c.beginToken s).cursor, later⟩
      (t.token c.beginToken s).state :=
  .call ⟨text, hne, htook⟩ hp (.done _ _)

/-- **The reading goes through a passage**, and the spans on the way have
styles in `p`. -/
theorem readOn (h : t.Passage p pl s pl' s') (index : Nat) :
    ∃ index' spans, (∀ sp ∈ spans, p sp.style) ∧
      t.readOn index pl s =
        { t.readOn index' pl' s' with spans := spans ++ (t.readOn index' pl' s').spans } := by
  induction h generalizing index with
  | done pl s => exact ⟨index, [], by simp, rfl⟩
  | @call c later _ s _ hadv hp _ ih =>
    obtain ⟨index', spans, hspans, hread⟩ := ih index
    refine ⟨index', t.callSpan index ⟨c.beginToken, s⟩ :: spans, ?_, ?_⟩
    · intro sp hsp
      rcases List.mem_cons.mp hsp with rfl | hsp
      · exact hp
      · exact hspans sp hsp
    · rw [t.readOn_call hadv, hread]
      rfl
  | line hrest _ ih =>
    obtain ⟨index', spans, hspans, hread⟩ := ih (index + 1)
    exact ⟨index', spans, hspans, by rw [t.readOn_line hrest, hread]⟩

/-- A passage to the end of the document is the whole reading. -/
theorem readOn_of_end (h : t.Passage p pl s pl' s') (hend : pl'.ahead = []) (index : Nat) :
    (t.readOn index pl s).failure = none ∧ (∀ sp ∈ (t.readOn index pl s).spans, p sp.style) ∧
      (t.readOn index pl s).state = s' := by
  obtain ⟨index', spans, hspans, hread⟩ := h.readOn index
  rw [hread, t.readOn_end hend]
  exact ⟨rfl, by simpa using hspans, rfl⟩

end Passage

/-! ## Texts that carry states -/

/-- A text takes every state in `P` to one in `Q`, wherever it stands before
a text in `stop` and whatever lines it is broken into. -/
def Carries (p : Option Style → Prop) (P : σ → Prop) (text : List Char)
    (stop : List Char → Prop) (Q : σ → Prop) : Prop :=
  ∀ ⦃pl : Place⦄ ⦃s : σ⦄ ⦃after : List Char⦄, pl.ahead = text ++ after → stop after → P s →
    ∃ pl' s', t.Passage p pl s pl' s' ∧ pl'.ahead = after ∧ Q s'

/-- A call that takes a text, makes a token with a style in `p`, and leaves a
state in `Q`. -/
structure CallTakes (p : Option Style → Prop) (c : Cursor) (s : σ) (text : List Char)
    (Q : σ → Prop) : Prop where
  took : c.Took text (t.token c s).cursor
  style : p (t.token c s).style
  state : Q (t.token c s).state

/-- What a call takes is behind the place that it leads to. -/
theorem CallTakes.passage {t : Tokenizer σ} {p : Option Style → Prop} {Q : σ → Prop} {c : Cursor}
    {s : σ} {text left : List Char} (h : t.CallTakes p c.beginToken s text Q) (hne : text ≠ [])
    (hrest : c.rest = text ++ left) (later : List (List Char)) :
    ∃ pl s', t.Passage p ⟨c, later⟩ s pl s' ∧ pl.ahead = left ++ Place.below ⟨c, later⟩ ∧ Q s' := by
  refine ⟨_, _, .single hne h.took h.style later, ?_, h.state⟩
  exact congrArg (· ++ _) (h.took.rest_eq hrest)

/-- A call that takes an opener and then what a scan for the mark takes of
the rest of the line, and leaves a state in `Q` if the mark was there and one
in `R` if not. -/
def CallScans (p : Option Style → Prop) (mark : List Char) (R Q : σ → Prop) (c : Cursor) (s : σ)
    (opener rest : List Char) : Prop :=
  t.CallTakes p c s (opener ++ rest.take (Scan.through mark rest).width)
    (if (Scan.through mark rest).closed then Q else R)

/-- Such a call leads behind the mark, or the rest of the line belongs to the
text before it. -/
theorem CallScans.passage {t : Tokenizer σ} {p : Option Style → Prop} {R Q : σ → Prop}
    {mark opener rest body after : List Char} {c : Cursor} {s : σ} {later : List (List Char)}
    (h : t.CallScans p mark R Q c.beginToken s opener rest) (hmark : Scan.IsEndMark mark)
    (hne : opener ++ rest ≠ []) (hrest : c.rest = opener ++ rest)
    (hahead : Place.ahead ⟨c, later⟩ = opener ++ (body ++ (mark ++ after)))
    (hfree : ¬ mark <:+: body) :
    ∃ pl s', t.Passage p ⟨c, later⟩ s pl s' ∧
      (pl.ahead = after ∧ Q s' ∨
        ∃ tail, body = rest ++ tail ∧ pl.ahead = tail ++ (mark ++ after) ∧ R s') := by
  have hread := Scan.append_take_through_ne_nil hmark.ne_nil hne
  have hcut : c.rest = opener ++ rest.take (Scan.through mark rest).width ++
      rest.drop (Scan.through mark rest).width := by
    rw [hrest, List.append_assoc, List.take_append_drop]
  obtain ⟨pl, s', hpassage, hplace, hs'⟩ := CallTakes.passage h hread hcut later
  refine ⟨pl, s', hpassage, ?_⟩
  rw [Place.ahead, hrest, List.append_assoc] at hahead
  rcases Scan.through_cases hmark hfree (Place.head?_below ⟨c, later⟩)
    (List.append_cancel_left hahead) with ⟨left, rfl, rfl, hscan⟩ | ⟨tail, rfl, hbelow, hscan⟩
  · left
    rw [hscan] at hplace hs'
    refine ⟨?_, hs'⟩
    rw [hplace, ← List.append_assoc body, ← List.length_append, List.drop_left]
  · right
    rw [hscan] at hplace hs'
    refine ⟨tail, rfl, ?_, by simpa using hs'⟩
    rw [hplace, List.drop_length, hbelow, List.nil_append]

namespace Carries

variable {t} {p : Option Style → Prop} {P Q R : σ → Prop}
variable {text more mark opener body : List Char} {stop stop' : List Char → Prop}

theorem nil (P : σ → Prop) : t.Carries p P [] stop P := fun pl s _ h _ hP =>
  ⟨pl, s, .done pl s, h, hP⟩

/-- **One text after another.** -/
theorem seq (h : t.Carries p P text stop R) (h' : t.Carries p R more stop' Q)
    (hstop : ∀ after, stop' after → stop (more ++ after)) :
    t.Carries p P (text ++ more) stop' Q := by
  intro pl s after hahead hafter hP
  rw [List.append_assoc] at hahead
  obtain ⟨pl₁, s₁, hpassage, hahead₁, hR⟩ := h hahead (hstop after hafter) hP
  obtain ⟨pl', s', hpassage', hahead', hQ⟩ := h' hahead₁ hafter hR
  exact ⟨pl', s', hpassage.trans hpassage', hahead', hQ⟩

/-- A text carries fewer states to more. -/
theorem mono (h : t.Carries p P text stop Q) {P' Q' : σ → Prop} (hP : ∀ s, P' s → P s)
    (hQ : ∀ s, Q s → Q' s) (hstop : ∀ after, stop' after → stop after) :
    t.Carries p P' text stop' Q' := by
  intro pl s after hahead hafter hs
  obtain ⟨pl', s', hpassage, hahead', hs'⟩ := h hahead (hstop after hafter) (hP s hs)
  exact ⟨pl', s', hpassage, hahead', hQ s' hs'⟩

/-- **A text that one call reads**, where a text stops it if its part on the
line does. -/
theorem of_call (hne : text ≠ []) (hfeed : '\n' ∉ text)
    (hstop : ∀ left more, stop (left ++ more) → stop left)
    (h : ∀ (c : Cursor) (s : σ) (left : List Char), P s → c.token = [] → c.rest = text ++ left →
      stop left → t.CallTakes p c s text Q) : t.Carries p P text stop Q := by
  rintro ⟨c, later⟩ s after hahead hafter hP
  obtain ⟨left, hrest, hleft⟩ := exists_left_of_no_feed (Place.head?_below ⟨c, later⟩) hfeed hahead
  obtain ⟨pl, s', hpassage, hplace, hQ⟩ :=
    (h c.beginToken s left hP rfl hrest (hstop left _ (hleft ▸ hafter))).passage hne hrest later
  exact ⟨pl, s', hpassage, hplace.trans hleft.symm, hQ⟩

/-- At the end of a line the text goes on with a line feed. -/
theorem of_atEnd {c : Cursor} {later : List (List Char)} {s : σ} {x : Char} {after : List Char}
    (hrest : c.rest = []) (hahead : Place.ahead ⟨c, later⟩ = x :: (text ++ after))
    (h : t.Carries p P text stop Q) (hafter : stop after) (hP : P s) :
    x = '\n' ∧ ∃ pl s', t.Passage p ⟨c, later⟩ s pl s' ∧ pl.ahead = after ∧ Q s' := by
  cases later with
  | nil => simp [Place.ahead, Place.below, hrest] at hahead
  | cons line later =>
    simp only [Place.ahead, Place.below, hrest, List.nil_append, List.flatMap_cons,
      List.cons_append, List.cons.injEq] at hahead
    obtain ⟨rfl, hahead⟩ := hahead
    have hnext : Place.ahead ⟨.ofLine line, later⟩ = text ++ after := hahead
    obtain ⟨pl, s', hpassage, hahead', hQ⟩ := h hnext hafter hP
    exact ⟨rfl, pl, s', .line hrest hpassage, hahead', hQ⟩

/-- **A run of characters** each call in which reads some of. -/
theorem of_run {q : Char → Bool}
    (h : ∀ (c : Cursor) (s : σ), P s → c.token = [] → (∃ x ∈ c.rest.head?, q x = true) →
      ∃ read, read ≠ [] ∧ (∀ x ∈ read, q x = true) ∧ t.CallTakes p c s read P)
    (htext : ∀ x ∈ text, q x = true) :
    t.Carries p P text (fun after => ∀ x ∈ after.head?, q x = false) P := by
  induction hlen : text.length using Nat.strong_induction_on generalizing text with
  | _ n ih =>
    rintro ⟨c, later⟩ s after hahead hafter hP
    cases text with
    | nil => exact ⟨_, _, .done _ _, hahead, hP⟩
    | cons x text =>
      have hsmaller : ∀ smaller : List Char, smaller.length < n → (∀ y ∈ smaller, q y = true) →
          t.Carries p P smaller (fun after => ∀ x ∈ after.head?, q x = false) P :=
        fun smaller hlt hall => ih smaller.length hlt hall rfl
      cases hrest : c.rest with
      | nil =>
        have htail := hsmaller text (by simp [← hlen]) fun y hy => htext y (by simp [hy])
        exact (htail.of_atEnd hrest hahead hafter hP).2
      | cons y rest =>
        obtain ⟨rfl, -⟩ : y = x ∧ _ := by
          simpa only [Place.ahead, hrest, List.cons_append, List.cons.injEq] using hahead
        obtain ⟨read, hne, hall, htakes⟩ :=
          h c.beginToken s hP rfl ⟨y, by simp [hrest], htext y (by simp)⟩
        have hcut : c.rest = read ++ (t.token c.beginToken s).cursor.rest := htakes.took.rest
        obtain ⟨pl, s₁, hpassage, hplace, hP₁⟩ := htakes.passage hne hcut later
        rw [Place.ahead, hcut, List.append_assoc] at hahead
        obtain ⟨tail, htail, hleft⟩ := exists_tail_of_run hall hafter hahead
        have hshort : tail.length < n := by
          have hlength := congrArg List.length htail
          have hread := List.length_pos_iff.mpr hne
          rw [List.length_append] at hlength
          omega
        obtain ⟨pl', s', hpassage', hahead', hP'⟩ :=
          hsmaller tail hshort (fun z hz => htext z (by simp [htail, hz])) (hplace.trans hleft)
            hafter hP₁
        exact ⟨pl', s', hpassage.trans hpassage', hahead', hP'⟩

/-- **A text with a mark at its end**, of which each call reads blanks or
scans the line for the mark. -/
theorem of_mark (hmark : Scan.IsEndMark mark)
    (hblanks : ∀ (c : Cursor) (s : σ), R s → c.token = [] →
      (∃ x ∈ c.rest.head?, isBlank x = true) → t.CallTakes p c s (c.rest.takeWhile isBlank) R)
    (hscan : ∀ (c : Cursor) (s : σ), R s → c.token = [] →
      (∃ x ∈ c.rest.head?, isBlank x = false) → t.CallScans p mark R Q c s [] c.rest)
    (hfree : ¬ mark <:+: body) : t.Carries p R (body ++ mark) (fun _ => True) Q := by
  induction hlen : body.length using Nat.strong_induction_on generalizing body with
  | _ n ih =>
    rintro ⟨c, later⟩ s after hahead - hR
    have hsmaller : ∀ read tail : List Char, body = read ++ tail → read ≠ [] →
        t.Carries p R (tail ++ mark) (fun _ => True) Q := by
      rintro read tail rfl hread
      refine ih tail.length ?_ (fun h => hfree (h.trans (List.suffix_append read tail).isInfix)) rfl
      have hpos := List.length_pos_iff.mpr hread
      rw [List.length_append] at hlen
      omega
    rw [List.append_assoc] at hahead
    have hstop : ∀ x ∈ (mark ++ after).head?, isBlank x = false := hmark.head?_append after
    cases hrest : c.rest with
    | nil =>
      cases body with
      | nil => exact absurd hrest (hmark.rest_ne_nil hahead)
      | cons x body =>
        rw [List.cons_append, ← List.append_assoc] at hahead
        exact ((hsmaller [x] body rfl (by simp)).of_atEnd hrest hahead trivial hR).2
    | cons y rest =>
      cases hy : isBlank y with
      | true =>
        have htakes := hblanks c.beginToken s hR rfl ⟨y, by simp [hrest], hy⟩
        have hread : c.beginToken.rest.takeWhile isBlank ≠ [] := by simp [hrest, hy]
        have hcut : c.rest = c.beginToken.rest.takeWhile isBlank ++
            (t.token c.beginToken s).cursor.rest := htakes.took.rest
        obtain ⟨pl, s₁, hpassage, hplace, hR₁⟩ := htakes.passage hread hcut later
        rw [Place.ahead, hcut, List.append_assoc] at hahead
        obtain ⟨tail, htail, hleft⟩ :=
          exists_tail_of_run (fun x hx => List.mem_takeWhile_imp hx) hstop hahead
        obtain ⟨pl', s', hpassage', hahead', hQ⟩ := hsmaller _ tail htail hread
          ((hplace.trans hleft).trans (List.append_assoc ..).symm) trivial hR₁
        exact ⟨pl', s', hpassage.trans hpassage', hahead', hQ⟩
      | false =>
        have hscans := hscan c.beginToken s hR rfl ⟨y, by simp [hrest], hy⟩
        obtain ⟨pl, s₁, hpassage, ⟨hplace, hQ⟩ | ⟨tail, htail, hplace, hR₁⟩⟩ :=
          hscans.passage hmark (by simp [hrest]) (List.nil_append _).symm hahead hfree
        · exact ⟨pl, s₁, hpassage, hplace, hQ⟩
        · obtain ⟨pl', s', hpassage', hahead', hQ⟩ := hsmaller _ tail htail (by simp [hrest])
            (hplace.trans (List.append_assoc ..).symm) trivial hR₁
          exact ⟨pl', s', hpassage.trans hpassage', hahead', hQ⟩

/-- **A construct with an opener and a mark at its end**, if the call that
reads the opener scans the rest of the line for the mark. -/
theorem of_opener (hmark : Scan.IsEndMark mark) (hne : opener ≠ []) (hfeed : '\n' ∉ opener)
    (hopen : ∀ (c : Cursor) (s : σ) (rest : List Char), P s → c.token = [] →
      c.rest = opener ++ rest → t.CallScans p mark R Q c s opener rest)
    (hinside : ∀ body : List Char, ¬ mark <:+: body →
      t.Carries p R (body ++ mark) (fun _ => True) Q)
    (hfree : ¬ mark <:+: body) : t.Carries p P (opener ++ (body ++ mark)) (fun _ => True) Q := by
  rintro ⟨c, later⟩ s after hahead - hP
  rw [List.append_assoc, List.append_assoc] at hahead
  obtain ⟨rest, hrest, -⟩ := exists_left_of_no_feed (Place.head?_below ⟨c, later⟩) hfeed hahead
  obtain ⟨pl, s₁, hpassage, ⟨hplace, hQ⟩ | ⟨tail, rfl, hplace, hR⟩⟩ :=
    (hopen c.beginToken s rest hP rfl hrest).passage hmark (by simp [hne]) hrest hahead hfree
  · exact ⟨pl, s₁, hpassage, hplace, hQ⟩
  · obtain ⟨pl', s', hpassage', hahead', hQ⟩ :=
      hinside tail (fun h => hfree (h.trans (List.suffix_append rest tail).isInfix))
        (hplace.trans (List.append_assoc ..).symm) trivial hR
    exact ⟨pl', s', hpassage.trans hpassage', hahead', hQ⟩

end Carries

end Tokenizer

end MixedMarkup
