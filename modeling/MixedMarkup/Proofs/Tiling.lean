import MixedMarkup.Document
import MixedMarkup.Proofs.Movement
/-!
# Documents — runs, and the tiling of lines

A run is a stretch of the reading of a line in which every call moves the
cursor forward. Its spans tile the stretch (`Run.tiles`), and the reading
of the line is the run followed by the reading from where it ended
(`Run.readFrom_eq`), so what is proved of runs is proved of the driver. A
tokenizer that consumes has a run to the end of every line
(`Tokenizer.Consumes.exists_run`), and with it every line of a document
is tiled by its spans (`Tokenizer.Consumes.covers`).
-/

namespace MixedMarkup

open Text

/-! ## Offsets -/

namespace Text

/-- An offset determines the cut of a text. -/
theorem append_inj_of_byteSize {a b a' b' : List Char} (h : a ++ b = a' ++ b')
    (hsize : byteSize a = byteSize a') : a = a' ∧ b = b' := by
  have h₁ := splitBytes_byteSize a b
  have h₂ := splitBytes_byteSize a' b'
  rw [hsize, h, h₂] at h₁
  simp only [Prod.mk.injEq] at h₁
  exact ⟨h₁.1.symm, h₁.2.symm⟩

end Text

/-! ## Spans that tile -/

/-- A span is a piece of the line, with a character at least: its offsets
are those of a cut between characters, and its text is what stands
between them. -/
def Span.SliceOf (s : Span) (line : List Char) : Prop :=
  ∃ before text after, line = before ++ (text ++ after) ∧ text ≠ [] ∧
    s.start = byteSize before ∧ s.stop = byteSize (before ++ text) ∧
    s.text = String.ofList text

/-- Spans lie one after the other on the line, from the offset `p` to the
offset `q`. -/
def Tiles (line : List Char) : Nat → List Span → Nat → Prop
  | p, [], q => p = q
  | p, s :: spans, q => s.start = p ∧ s.SliceOf line ∧ Tiles line s.stop spans q

/-- **Tiling spans hold the text they tile.** Where the line is cut at
their first offset, what follows begins with their texts, and their last
offset is where these end. -/
theorem Tiles.texts {line : List Char} {spans : List Span} {q : Nat} :
    ∀ {before rest : List Char}, line = before ++ rest → Tiles line (byteSize before) spans q →
      ∃ after, rest = spans.flatMap (·.text.toList) ++ after ∧
        byteSize (before ++ spans.flatMap (·.text.toList)) = q := by
  induction spans with
  | nil =>
    intro before rest _ h
    exact ⟨rest, rfl, by simpa [Tiles] using h⟩
  | cons s spans ih =>
    intro before rest hline h
    obtain ⟨hstart, ⟨b, t, a, hcut, -, hb, hstop, htext⟩, htail⟩ := h
    -- an offset cuts the line in one way, so the span begins what is left
    obtain ⟨rfl, rfl⟩ := append_inj_of_byteSize (hcut.symm.trans hline) (hb.symm.trans hstart)
    rw [hstop] at htail
    obtain ⟨after, ha, hq⟩ := ih (by rw [hline, List.append_assoc]) htail
    refine ⟨after, ?_, ?_⟩
    · simp [htext, ← ha]
    · rw [← hq]
      simp [htext]

/-- So the texts of spans that tile a whole line concatenate to it. -/
theorem Tiles.texts_eq_line {line : List Char} {spans : List Span}
    (h : Tiles line 0 spans (byteSize line)) : spans.flatMap (·.text.toList) = line := by
  obtain ⟨after, hline, hsize⟩ := Tiles.texts (List.nil_append line).symm h
  have hcut : spans.flatMap (·.text.toList) ++ after = line ++ [] := by rw [← hline]; simp
  exact (append_inj_of_byteSize hcut hsize).1

/-! ## Calls and runs -/

/-- A call of a tokenizer: the place it is made at, where a token has just
begun, and the state before it. -/
structure Call (σ : Type) where
  cursor : Cursor
  state : σ

namespace Tokenizer

variable {σ : Type} (t : Tokenizer σ)

/-- What a call yields. -/
def stepOf (k : Call σ) : Step σ := t.token k.cursor k.state

/-- The text that a call reads. -/
def textOf (k : Call σ) : List Char := (t.stepOf k).cursor.token

/-- The span of a call on line `index`. -/
def callSpan (index : Nat) (k : Call σ) : Span := t.spanOf index (t.stepOf k)

/-- The calls that the reading of a line makes from the cursor on, up to
one that reads nothing. -/
def callsFrom (c : Cursor) (s : σ) : List (Call σ) :=
  if c.atEnd then []
  else
    let step := t.token c.beginToken s
    if step.cursor.rest.length < c.rest.length then
      ⟨c.beginToken, s⟩ :: callsFrom step.cursor step.state
    else []
termination_by c.rest.length

/-- **The spans of a line are those of its calls.** -/
theorem readFrom_spans (index : Nat) (c : Cursor) (s : σ) :
    (t.readFrom index c s).spans = (t.callsFrom c s).map (t.callSpan index) := by
  fun_induction callsFrom t c s with
  | case1 c s hend => rw [readFrom, if_pos hend]; rfl
  | case2 c s hend step hlt ih =>
    rw [readFrom, if_neg hend]
    simp only [step, hlt, if_true, List.map_cons, ← ih]
    rfl
  | case3 c s hend step hlt =>
    rw [readFrom, if_neg hend]
    simp only [step, hlt, if_false, List.map_nil]

/-- `calls` are made one after the other from `c` in the state `s`, each
moves the cursor forward, and they end at `d` in the state `s'`. -/
inductive Run : Cursor → σ → List (Call σ) → Cursor → σ → Prop
  | done (c : Cursor) (s : σ) : Run c s [] c s
  | call {c d : Cursor} {s s' : σ} {calls : List (Call σ)} :
      c.beginToken.Advances (t.token c.beginToken s).cursor →
      Run (t.token c.beginToken s).cursor (t.token c.beginToken s).state calls d s' →
      Run c s (⟨c.beginToken, s⟩ :: calls) d s'

namespace Run

variable {t} {c d e : Cursor} {s s' s'' : σ} {calls more : List (Call σ)}

theorem single (h : c.beginToken.Advances (t.token c.beginToken s).cursor) :
    t.Run c s [⟨c.beginToken, s⟩] (t.token c.beginToken s).cursor (t.token c.beginToken s).state :=
  .call h (.done _ _)

theorem append (h : t.Run c s calls d s') (h' : t.Run d s' more e s'') :
    t.Run c s (calls ++ more) e s'' := by
  induction h with
  | done => exact h'
  | call hadv _ ih => exact .call hadv (ih h')

theorem line (h : t.Run c s calls d s') : d.line = c.line := by
  induction h with
  | done => rfl
  | @call c _ s _ _ hadv _ ih =>
    obtain ⟨text, -, htook⟩ := hadv
    rw [ih, htook.line, Cursor.line_beginToken]

theorem tabSize (h : t.Run c s calls d s') : d.tabSize = c.tabSize := by
  induction h with
  | done => rfl
  | @call c _ s _ _ hadv _ ih =>
    obtain ⟨text, -, htook⟩ := hadv
    rw [ih, htook.tabSize, Cursor.tabSize_beginToken]

/-- A run takes what its calls read. -/
theorem rest (h : t.Run c s calls d s') : c.rest = calls.flatMap t.textOf ++ d.rest := by
  induction h with
  | done => rfl
  | @call c _ s _ _ hadv _ ih =>
    obtain ⟨text, -, htook⟩ := hadv
    have htext : t.textOf ⟨c.beginToken, s⟩ = text := htook.token
    have hrest : c.rest = text ++ (t.token c.beginToken s).cursor.rest := htook.rest
    rw [List.flatMap_cons, htext, hrest, ih, List.append_assoc]

/-- And ends as far ahead as that is long. -/
theorem pos_eq {body after : List Char} (h : t.Run c s calls d s') (hc : c.rest = body ++ after)
    (hd : d.rest = after) : d.pos = c.pos + byteSize body := by
  have hline : d.line = c.line := h.line
  rw [Cursor.line, Cursor.line, hd, hc, ← List.append_assoc, ← List.append_assoc,
    ← List.append_assoc] at hline
  rw [Cursor.pos_eq, Cursor.pos_eq, ← byteSize_append, List.append_cancel_right hline]

/-- **The reading of a line goes through a run.** -/
theorem readFrom_eq (h : t.Run c s calls d s') (index : Nat) :
    t.readFrom index c s =
      { t.readFrom index d s' with
        spans := calls.map (t.callSpan index) ++ (t.readFrom index d s').spans } := by
  induction h with
  | done => rfl
  | @call c _ s _ _ hadv _ ih =>
    have hend : c.atEnd = false := hadv.atEnd
    have hlt : (t.token c.beginToken s).cursor.rest.length < c.rest.length := hadv.rest_lt
    rw [readFrom, if_neg (by simp [hend])]
    simp only [hlt, if_true]
    rw [ih]
    rfl

/-- And so do its calls. -/
theorem callsFrom_eq (h : t.Run c s calls d s') :
    t.callsFrom c s = calls ++ t.callsFrom d s' := by
  induction h with
  | done => rfl
  | @call c _ s _ _ hadv _ ih =>
    have hend : c.atEnd = false := hadv.atEnd
    have hlt : (t.token c.beginToken s).cursor.rest.length < c.rest.length := hadv.rest_lt
    rw [callsFrom, if_neg (by simp [hend])]
    simp only [hlt, if_true]
    rw [ih]
    rfl

/-- The span of a call that moves the cursor is a slice of the line. -/
theorem callSpan_sliceOf (index : Nat)
    (h : c.beginToken.Advances (t.token c.beginToken s).cursor) :
    (t.callSpan index ⟨c.beginToken, s⟩).SliceOf c.line := by
  obtain ⟨text, hne, htook⟩ := h
  have htoken : (t.token c.beginToken s).cursor.token = text := by simpa using htook.token
  refine ⟨c.beginToken.before, text, (t.token c.beginToken s).cursor.rest, ?_, hne, ?_, ?_, ?_⟩
  · rw [← htook.rest, ← Cursor.line_beginToken]
    simp [Cursor.line]
  · simp only [callSpan, spanOf, stepOf, Cursor.start, htook.before]
  · simp only [callSpan, spanOf, stepOf, Cursor.pos_eq, htook.before, htoken]
  · simp only [callSpan, spanOf, stepOf, htoken]

/-- **The spans of a run tile what it takes.** -/
theorem tiles (h : t.Run c s calls d s') (index : Nat) :
    Tiles c.line c.pos (calls.map (t.callSpan index)) d.pos := by
  induction h with
  | done => rfl
  | @call c _ s _ _ hadv _ ih =>
    have hslice := callSpan_sliceOf (t := t) (s := s) index hadv
    obtain ⟨text, -, htook⟩ := hadv
    refine ⟨?_, hslice, ?_⟩
    · simp only [callSpan, spanOf, stepOf, Cursor.start, htook.before]
      rw [Cursor.pos_eq, Cursor.beginToken]
    · -- the next call starts where this span stops
      rw [htook.line, Cursor.line_beginToken] at ih
      exact ih

end Run

/-! ## Whole lines and documents -/

/-- The spans of a line carry its index. -/
theorem line_of_mem_readLine {index : Nat} {line : List Char} {s : σ} {sp : Span}
    (h : sp ∈ (t.readLine index line s).spans) : sp.line = index := by
  rw [readLine, readFrom_spans, List.mem_map] at h
  obtain ⟨k, -, rfl⟩ := h
  rfl

/-- A failure is never the outcome at the end of a line. -/
theorem readFrom_of_atEnd {c : Cursor} (h : c.rest = []) (index : Nat) (s : σ) :
    t.readFrom index c s = ⟨[], s, none⟩ := by
  rw [readFrom, if_pos (Cursor.atEnd_iff.mpr h)]

theorem callsFrom_of_atEnd {c : Cursor} (h : c.rest = []) (s : σ) : t.callsFrom c s = [] := by
  rw [callsFrom, if_pos (Cursor.atEnd_iff.mpr h)]

/-- **A document is covered by its spans.** The reading succeeds, every
span stands on a line of the document, and the spans of each line tile it
from its start to its end, so that their texts make up the line. -/
def Covers (source : String) : Prop :=
  ∃ spans, t.highlight source = .ok spans ∧
    (∀ s ∈ spans, s.line < (linesOf source).length) ∧
    ∀ i line, (linesOf source)[i]? = some line →
      Tiles line 0 (spans.filter (·.line = i)) (byteSize line) ∧
        (spans.filter (·.line = i)).flatMap (·.text.toList) = line

namespace Consumes

variable {t}

/-- A tokenizer that consumes reads every line to its end. -/
theorem exists_run (ht : t.Consumes) (c : Cursor) (s : σ) :
    ∃ calls d s', t.Run c s calls d s' ∧ d.rest = [] := by
  -- each call leaves less of the line
  induction hn : c.rest.length using Nat.strongRecOn generalizing c s with
  | ind n ih =>
    by_cases hnil : c.rest = []
    · exact ⟨[], c, s, .done c s, hnil⟩
    · have hadv := ht c.beginToken s rfl hnil
      obtain ⟨calls, d, s', hrun, hd⟩ := ih _ (hn ▸ hadv.rest_lt) _ _ rfl
      exact ⟨_, d, s', .call hadv hrun, hd⟩

/-- And its spans tile it. -/
theorem readLine_tiles (ht : t.Consumes) (index : Nat) (line : List Char) (s : σ) :
    (t.readLine index line s).failure = none ∧
      Tiles line 0 (t.readLine index line s).spans (byteSize line) := by
  obtain ⟨calls, d, s', hrun, hd⟩ := ht.exists_run (.ofLine line) s
  have hread := hrun.readFrom_eq index
  rw [readFrom_of_atEnd t hd, List.append_nil] at hread
  -- where nothing is left, the offset is the size of the line
  have hpos : d.pos = byteSize line := by
    have hline : d.line = line := hrun.line
    rw [← hline, Cursor.line, hd, Cursor.pos_eq, List.append_nil]
  rw [readLine, hread]
  exact ⟨rfl, hpos ▸ hrun.tiles index⟩

/-- The reading of lines does not fail, and puts every span on one of
them. -/
theorem readLines_line (ht : t.Consumes) (lines : List (List Char)) :
    ∀ (index : Nat) (s : σ), (t.readLines index lines s).failure = none ∧
      ∀ sp ∈ (t.readLines index lines s).spans,
        index ≤ sp.line ∧ sp.line < index + lines.length := by
  induction lines with
  | nil =>
    intro index s
    exact ⟨rfl, by simp [readLines]⟩
  | cons first lines ih =>
    intro index s
    obtain ⟨hfail, hline⟩ := ih (index + 1) (t.readLine index first s).state
    rw [readLines]
    simp only [(ht.readLine_tiles index first s).1]
    refine ⟨hfail, ?_⟩
    intro sp hsp
    rw [List.length_cons]
    rcases List.mem_append.mp hsp with h | h
    · have := line_of_mem_readLine t h
      omega
    · have := hline sp h
      omega

/-- **The spans of a document, line by line.** Those with the index of a
line are the spans of that line, read in the state after the lines before
it. -/
theorem readLines_filter (ht : t.Consumes) (lines : List (List Char)) :
    ∀ (index : Nat) (s : σ) (i : Nat) (line : List Char), lines[i]? = some line →
      (t.readLines index lines s).spans.filter (·.line = index + i) =
        (t.readLine (index + i) line (t.readLines index (lines.take i) s).state).spans := by
  induction lines with
  | nil =>
    intro index s i line h
    simp at h
  | cons first lines ih =>
    intro index s i line h
    have hfail := (ht.readLine_tiles index first s).1
    rw [readLines]
    simp only [hfail, List.filter_append]
    -- the spans of the first line come first, and no later line has its index
    cases i with
    | zero =>
      obtain rfl : first = line := by simpa using h
      have hfirst : (t.readLine index first s).spans.filter (·.line = index + 0) =
          (t.readLine index first s).spans := by
        rw [List.filter_eq_self]
        intro sp hsp
        simpa using line_of_mem_readLine t hsp
      have hlater : (t.readLines (index + 1) lines (t.readLine index first s).state).spans.filter
          (·.line = index + 0) = [] := by
        rw [List.filter_eq_nil_iff]
        intro sp hsp
        have := (ht.readLines_line lines _ _).2 sp hsp
        simp only [decide_eq_true_eq]
        omega
      rw [hfirst, hlater, List.append_nil]
      rfl
    | succ i =>
      have hfirst : (t.readLine index first s).spans.filter (·.line = index + (i + 1)) = [] := by
        rw [List.filter_eq_nil_iff]
        intro sp hsp
        have := line_of_mem_readLine t hsp
        simp only [decide_eq_true_eq]
        omega
      have hnext := ih (index + 1) (t.readLine index first s).state i line (by simpa using h)
      rw [hfirst, List.nil_append, show index + (i + 1) = index + 1 + i by omega, hnext,
        List.take_succ_cons, readLines]
      simp only [hfail]

/-- **A tokenizer that consumes covers every document.** -/
theorem covers (ht : t.Consumes) (source : String) : t.Covers source := by
  obtain ⟨hfail, hbound⟩ := ht.readLines_line (linesOf source) 0 (t.start 0)
  refine ⟨(t.readLines 0 (linesOf source) (t.start 0)).spans, ?_, ?_, ?_⟩
  · simp only [highlight, hfail]
  · intro sp hsp
    have := (hbound sp hsp).2
    omega
  · intro i line h
    have hspans := ht.readLines_filter (linesOf source) 0 (t.start 0) i line h
    rw [Nat.zero_add] at hspans
    rw [hspans]
    have htiles := (ht.readLine_tiles i line
      (t.readLines 0 ((linesOf source).take i) (t.start 0)).state).2
    exact ⟨htiles, htiles.texts_eq_line⟩

end Consumes

end Tokenizer

end MixedMarkup
