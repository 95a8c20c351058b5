import MixedMarkup.Proofs.Tiling
/-!
# Documents — what the reading of a line comes to

The line driver does not rely on a tokenizer that consumes. After each call
it looks where the cursor is, and the first call that has read nothing ends
the reading with a failure. All that is asked of a tokenizer here is that it
moves the cursor forward or not at all (`MovesForward`). Then the calls before
that one are a run, the spans of a run tile what it takes, and so the reading
either tiles the line or stops at the call where the tiles end
(`line_outcome`). The driver that goes on whatever a call has read
(`callAt?`) tells which calls there are to fail.
-/

namespace MixedMarkup

open Text

namespace Text

/-- Only the empty text has no bytes. -/
theorem byteSize_eq_zero_iff {text : List Char} : byteSize text = 0 ↔ text = [] := by
  cases text with
  | nil => simp
  | cons c cs =>
    have := c.utf8Size_pos
    simp only [byteSize_cons, reduceCtorEq, iff_false]
    omega

end Text

/-- Where a cursor moves there is something to read. -/
theorem Cursor.Advances.rest_ne_nil {c d : Cursor} (h : c.Advances d) : c.rest ≠ [] := by
  intro hrest
  have hlt := h.rest_lt
  simp [hrest] at hlt

namespace Tokenizer

variable {σ : Type} (t : Tokenizer σ)

/-- A token moves the cursor forward within its line, or not at all, and
leaves its own start alone. -/
def MovesForward : Prop :=
  ∀ (c : Cursor) (s : σ), c.token = [] → c.rest ≠ [] → c.Reaches (t.token c s).cursor

/-! ## The calls of a reading -/

/-- The call with the number `n` of a driver that calls as long as something
is left of the line, whether or not the calls read anything. -/
def callAt? (c : Cursor) (s : σ) : Nat → Option (Call σ)
  | 0 => if c.atEnd then none else some ⟨c.beginToken, s⟩
  | n + 1 =>
    if c.atEnd then none
    else callAt? (t.token c.beginToken s).cursor (t.token c.beginToken s).state n

/-- After the call the cursor is not past the start of the token. -/
def ReadsNothing (k : Call σ) : Prop :=
  (t.stepOf k).cursor.pos ≤ (t.stepOf k).cursor.start

variable {t} {c d : Cursor} {s s' : σ} {calls : List (Call σ)}

theorem readsNothing_iff {k : Call σ} : t.ReadsNothing k ↔ t.textOf k = [] := by
  rw [ReadsNothing, Cursor.pos, Cursor.start, textOf, ← byteSize_eq_zero_iff]
  omega

theorem callAt?_of_atEnd (h : c.rest = []) (s : σ) (n : Nat) : t.callAt? c s n = none := by
  have hend : c.atEnd = true := Cursor.atEnd_iff.mpr h
  cases n <;> simp [callAt?, hend]

theorem callAt?_zero (h : c.rest ≠ []) (s : σ) : t.callAt? c s 0 = some ⟨c.beginToken, s⟩ := by
  rw [callAt?, if_neg (mt Cursor.atEnd_iff.mp h)]

theorem callAt?_succ (h : c.rest ≠ []) (s : σ) (n : Nat) :
    t.callAt? c s (n + 1) =
      t.callAt? (t.token c.beginToken s).cursor (t.token c.beginToken s).state n := by
  rw [callAt?, if_neg (mt Cursor.atEnd_iff.mp h)]

namespace Run

/-- The calls of a run are the first calls. -/
theorem callAt?_eq_getElem? (h : t.Run c s calls d s') {n : Nat} (hn : n < calls.length) :
    t.callAt? c s n = calls[n]? := by
  induction h generalizing n with
  | done => simp at hn
  | @call c _ s _ _ hadv _ ih =>
    have hrest : c.rest ≠ [] := hadv.rest_ne_nil
    cases n with
    | zero => exact callAt?_zero hrest s
    | succ n =>
      rw [callAt?_succ hrest]
      exact ih (by simpa using hn)

/-- Behind a run the calls are those from where it ended. -/
theorem callAt?_add (h : t.Run c s calls d s') (n : Nat) :
    t.callAt? c s (calls.length + n) = t.callAt? d s' n := by
  induction h with
  | done => simp
  | @call c _ _ _ _ hadv _ ih =>
    have hrest : c.rest ≠ [] := hadv.rest_ne_nil
    rw [List.length_cons, Nat.add_right_comm, callAt?_succ hrest]
    exact ih

/-- The calls of a run read something. -/
theorem not_readsNothing (h : t.Run c s calls d s') : ∀ k ∈ calls, ¬ t.ReadsNothing k := by
  induction h with
  | done => simp
  | @call c _ s _ _ hadv _ ih =>
    obtain ⟨text, hne, htook⟩ := hadv
    have htext : t.textOf ⟨c.beginToken, s⟩ = text := htook.token
    intro k hk
    rcases List.mem_cons.mp hk with rfl | hk
    · rw [readsNothing_iff, htext]
      exact hne
    · exact ih k hk

/-- A run has no more calls than characters to read. -/
theorem length_le (h : t.Run c s calls d s') : calls.length ≤ c.rest.length := by
  induction h with
  | done => exact Nat.zero_le _
  | @call c _ _ _ _ hadv _ ih =>
    have hlt : _ < c.rest.length := hadv.rest_lt
    rw [List.length_cons]
    omega

/-- **The first calls read something** as long as the run goes. -/
theorem not_readsNothing_of_lt (h : t.Run c s calls d s') {n : Nat} (hn : n < calls.length)
    {k : Call σ} (hk : t.callAt? c s n = some k) : ¬ t.ReadsNothing k := by
  rw [h.callAt?_eq_getElem? hn] at hk
  exact h.not_readsNothing k (List.mem_of_getElem? hk)

end Run

/-! ## The end of a reading -/

/-- **A run goes on** to the end of the line or to a call that reads
nothing. -/
theorem MovesForward.exists_run (ht : t.MovesForward) (c : Cursor) (s : σ) :
    ∃ calls d s', t.Run c s calls d s' ∧
      (d.rest = [] ∨ d.rest ≠ [] ∧ t.ReadsNothing ⟨d.beginToken, s'⟩) := by
  -- a call that reads something leaves less of the line
  induction hn : c.rest.length using Nat.strongRecOn generalizing c s with
  | ind n ih =>
    by_cases hrest : c.rest = []
    · exact ⟨[], c, s, .done c s, .inl hrest⟩
    by_cases hnothing : t.ReadsNothing ⟨c.beginToken, s⟩
    · exact ⟨[], c, s, .done c s, .inr ⟨hrest, hnothing⟩⟩
    · obtain ⟨text, htook⟩ := ht c.beginToken s rfl hrest
      have htext : t.textOf ⟨c.beginToken, s⟩ = text := htook.token
      rw [readsNothing_iff, htext] at hnothing
      have hadv : c.beginToken.Advances (t.token c.beginToken s).cursor := ⟨text, hnothing, htook⟩
      obtain ⟨calls, d, s', hrun, hend⟩ := ih _ (hn ▸ hadv.rest_lt) _ _ rfl
      exact ⟨_, d, s', .call hadv hrun, hend⟩

/-- The reading fails at a call that reads nothing. -/
theorem MovesForward.readFrom_of_readsNothing (ht : t.MovesForward) (hrest : c.rest ≠ [])
    (h : t.ReadsNothing ⟨c.beginToken, s⟩) (index : Nat) :
    t.readFrom index c s = ⟨[], (t.stepOf ⟨c.beginToken, s⟩).state,
      some (.noProgress (index + 1) (c.pos + 1)
        (t.grammar (t.stepOf ⟨c.beginToken, s⟩).state))⟩ := by
  obtain ⟨text, htook⟩ := ht c.beginToken s rfl hrest
  have htext : t.textOf ⟨c.beginToken, s⟩ = text := htook.token
  obtain rfl : text = [] := htext ▸ readsNothing_iff.mp h
  have hsame : (t.token c.beginToken s).cursor.rest = c.rest := htook.rest.symm
  rw [readFrom, if_neg (mt Cursor.atEnd_iff.mp hrest)]
  simp only [hsame, Nat.lt_irrefl, if_false]
  rfl

variable (t)

/-- Read the line `index` from the cursor on, and append the span of each
call to those collected before it. -/
def collectFrom (index : Nat) (collected : List Span) (c : Cursor) (s : σ) : Reading σ :=
  if c.atEnd then ⟨collected, s, none⟩
  else
    let step := t.token c.beginToken s
    if step.cursor.rest.length < c.rest.length then
      collectFrom index (collected ++ [t.spanOf index step]) step.cursor step.state
    else
      ⟨collected, step.state, some (.noProgress (index + 1) (c.pos + 1) (t.grammar step.state))⟩
termination_by c.rest.length

/-- Read one line, with the spans of the lines before it collected. -/
def collectLine (index : Nat) (collected : List Span) (line : List Char) (s : σ) : Reading σ :=
  t.collectFrom index collected (.ofLine line) s

/-- **Collecting the spans is reading them**: those collected before stay in
front. -/
theorem collectFrom_eq (index : Nat) (collected : List Span) (c : Cursor) (s : σ) :
    t.collectFrom index collected c s =
      { t.readFrom index c s with spans := collected ++ (t.readFrom index c s).spans } := by
  fun_induction collectFrom t index collected c s with
  | case1 collected c s hend => simp [readFrom, hend]
  | case2 collected c s hend step hlt ih =>
    rw [ih, readFrom.eq_def t index c s, if_neg hend]
    simp only [step, hlt, if_true, List.append_assoc, List.singleton_append]
  | case3 collected c s hend step hlt =>
    rw [readFrom, if_neg hend]
    simp only [step, hlt, if_false, List.append_nil]

/-- What the reading of a line comes to: the spans tile the line and no call
reads nothing, or they tile the line up to the first call that does, which is
the one reported. In both cases there are as many spans as calls before the
end. -/
inductive LineOutcome (index : Nat) (line : List Char) (s : σ) :
    List Span → Option Failure → Prop
  | whole {spans : List Span} :
      Tiles line 0 spans (byteSize line) → t.callAt? (.ofLine line) s spans.length = none →
      (∀ n k, t.callAt? (.ofLine line) s n = some k → ¬ t.ReadsNothing k) →
      LineOutcome index line s spans none
  | stopped {spans : List Span} {k : Call σ} :
      Tiles line 0 spans k.cursor.pos → k.cursor.pos < byteSize line →
      t.callAt? (.ofLine line) s spans.length = some k → t.ReadsNothing k →
      (∀ n < spans.length, ∀ k', t.callAt? (.ofLine line) s n = some k' → ¬ t.ReadsNothing k') →
      LineOutcome index line s spans
        (some (.noProgress (index + 1) (k.cursor.pos + 1) (t.grammar (t.stepOf k).state)))

variable {t}

/-- The reading fails exactly if some call reads nothing. -/
theorem LineOutcome.failure_iff {index : Nat} {line : List Char} {spans : List Span}
    {failure : Option Failure} (h : t.LineOutcome index line s spans failure) :
    failure ≠ none ↔ ∃ n k, t.callAt? (.ofLine line) s n = some k ∧ t.ReadsNothing k := by
  cases h with
  | whole _ _ hall =>
    simp only [ne_eq, not_true_eq_false, false_iff]
    rintro ⟨n, k, hk, hnothing⟩
    exact hall n k hk hnothing
  | stopped _ _ hk hnothing _ =>
    simp only [ne_eq, reduceCtorEq, not_false_eq_true, true_iff]
    exact ⟨_, _, hk, hnothing⟩

/-- The outcome of a line that is read to its end by a run. -/
theorem Run.lineOutcome_of_end {line : List Char} (h : t.Run (.ofLine line) s calls d s')
    (hrest : d.rest = []) (index : Nat) :
    t.LineOutcome index line s (calls.map (t.callSpan index)) none := by
  have hpos : d.pos = byteSize line := by
    have hline : d.line = line := h.line
    rw [← hline, Cursor.line, hrest, Cursor.pos_eq, List.append_nil]
  have hnone (n : Nat) : t.callAt? (.ofLine line) s (calls.length + n) = none := by
    rw [h.callAt?_add, callAt?_of_atEnd hrest]
  refine .whole (hpos ▸ h.tiles index) ?_ ?_
  · rw [List.length_map]
    exact hnone 0
  · intro n k hk
    rcases Nat.lt_or_ge n calls.length with hlt | hge
    · exact h.not_readsNothing_of_lt hlt hk
    · obtain ⟨m, rfl⟩ := Nat.exists_eq_add_of_le hge
      rw [hnone] at hk
      simp at hk

/-- The outcome of a line on which a run leads to a call that reads
nothing. -/
theorem Run.lineOutcome_of_readsNothing {line : List Char}
    (h : t.Run (.ofLine line) s calls d s') (hrest : d.rest ≠ [])
    (hnothing : t.ReadsNothing ⟨d.beginToken, s'⟩) (index : Nat) :
    t.LineOutcome index line s (calls.map (t.callSpan index))
      (some (.noProgress (index + 1) (d.pos + 1)
        (t.grammar (t.stepOf ⟨d.beginToken, s'⟩).state))) := by
  have hline : d.line = line := h.line
  have hpos : d.beginToken.pos < byteSize line := by
    have hsize : byteSize d.rest ≠ 0 := mt byteSize_eq_zero_iff.mp hrest
    rw [← hline, Cursor.line, ← List.append_assoc, byteSize_append, ← Cursor.pos_eq,
      Cursor.pos_beginToken]
    omega
  have hcall : t.callAt? (.ofLine line) s (calls.length + 0) = some ⟨d.beginToken, s'⟩ := by
    rw [h.callAt?_add, callAt?_zero hrest]
  have htiles : Tiles line 0 (calls.map (t.callSpan index)) d.beginToken.pos := by
    rw [Cursor.pos_beginToken]
    exact h.tiles index
  rw [← Cursor.pos_beginToken d]
  refine .stopped htiles hpos ?_ hnothing ?_
  · rw [List.length_map]
    exact hcall
  · intro n hn k hk
    rw [List.length_map] at hn
    exact h.not_readsNothing_of_lt hn hk

/-- **The outcome of a line under any tokenizer** that moves the cursor
forward or not at all, from any state and with any spans collected before.
The reading ends after at most as many calls as the line has characters, and
one more; the spans collected before stay in front of the new ones. These
tile the line, or they tile it up to a call that reads nothing where
something is left, and the failure names the line and the byte column of that
call. The reading fails exactly if some call reads nothing, and at the first
that does. -/
theorem line_outcome (ht : t.MovesForward) (index : Nat) (collected : List Span)
    (line : List Char) (s : σ) :
    ∃ spans failure state,
      t.collectLine index collected line s = ⟨collected ++ spans, state, failure⟩ ∧
      t.readLine index line s = ⟨spans, state, failure⟩ ∧
      spans.length ≤ line.length ∧
      t.LineOutcome index line s spans failure ∧
      (failure ≠ none ↔ ∃ n k, t.callAt? (.ofLine line) s n = some k ∧ t.ReadsNothing k) := by
  obtain ⟨calls, d, s', hrun, hend⟩ := ht.exists_run (.ofLine line) s
  have hlength : (calls.map (t.callSpan index)).length ≤ line.length := by
    rw [List.length_map]
    exact hrun.length_le
  have hread := hrun.readFrom_eq index
  have hcollect := t.collectFrom_eq index collected (.ofLine line) s
  rcases hend with hrest | ⟨hrest, hnothing⟩
  · have houtcome := hrun.lineOutcome_of_end hrest index
    rw [readFrom_of_atEnd t hrest, List.append_nil] at hread
    rw [hread] at hcollect
    exact ⟨_, none, s', hcollect, hread, hlength, houtcome, houtcome.failure_iff⟩
  · have houtcome := hrun.lineOutcome_of_readsNothing hrest hnothing index
    rw [ht.readFrom_of_readsNothing hrest hnothing, List.append_nil] at hread
    rw [hread] at hcollect
    exact ⟨_, _, _, hcollect, hread, hlength, houtcome, houtcome.failure_iff⟩

end Tokenizer

/-- A tokenizer that reads single characters up to a byte offset, and nothing
from there on. -/
def stoppingAt (offset : Nat) : Tokenizer Unit where
  name := "stopping"
  start := fun _ => ()
  token := fun c s => ⟨none, if c.pos < offset then c.read 1 else c, s⟩

theorem stoppingAt_movesForward (offset : Nat) : (stoppingAt offset).MovesForward := by
  intro c s _ _
  change c.Reaches (if c.pos < offset then c.read 1 else c)
  split
  · exact Cursor.reaches_read 1 c
  · exact .refl c

/-- Such a tokenizer stops behind a character of two bytes, with the span of
that character put after those collected before. -/
theorem line_outcome_behind_wide_character :
    (stoppingAt 2).MovesForward ∧
      ((stoppingAt 2).collectLine 4 [⟨3, 0, 1, "a", none, "stopping"⟩] "éx".toList ()).spans =
        [⟨3, 0, 1, "a", none, "stopping"⟩, ⟨4, 0, 2, "é", none, "stopping"⟩] ∧
      ((stoppingAt 2).collectLine 4 [⟨3, 0, 1, "a", none, "stopping"⟩] "éx".toList ()).failure =
        some (.noProgress 5 3 "stopping") := by
  obtain ⟨spans, failure, state, hcollect, hread, -⟩ :=
    Tokenizer.line_outcome (stoppingAt_movesForward 2) 4 [⟨3, 0, 1, "a", none, "stopping"⟩]
      "éx".toList ()
  have hspans : ((stoppingAt 2).readLine 4 "éx".toList ()).spans =
      [⟨4, 0, 2, "é", none, "stopping"⟩] := by
    decide +kernel
  have hfailure : ((stoppingAt 2).readLine 4 "éx".toList ()).failure =
      some (.noProgress 5 3 "stopping") := by
    decide +kernel
  rw [hread] at hspans hfailure
  rw [hcollect]
  exact ⟨stoppingAt_movesForward 2, congrArg ([⟨3, 0, 1, "a", none, "stopping"⟩] ++ ·) hspans,
    hfailure⟩

end MixedMarkup
