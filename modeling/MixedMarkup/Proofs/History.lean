import MixedMarkup.Proofs.Tiling
/-!
# Documents — calls line by line, and histories

`callsByLine` lists the calls that the reading of a document makes, a list
for each line, and the spans of the document are their spans
(`readLines_spans`). A history is a list of calls, each made in the state
that the one before it left, wherever the lines end. Every call of a
document has the calls before it as its history
(`history_of_callsByLine`), so what a single call keeps holds at every
call of every document.
-/

namespace MixedMarkup

/-- A call is made where a token begins and there is something to read. -/
structure Call.Begins {σ : Type} (k : Call σ) : Prop where
  token : k.cursor.token = []
  rest : k.cursor.rest ≠ []

namespace Tokenizer

variable {σ : Type}

/-- The calls that the reading of lines makes, a list for each line, up to
the first line on which it fails. -/
def callsByLine (t : Tokenizer σ) (index : Nat) : List (List Char) → σ → List (List (Call σ))
  | [], _ => []
  | line :: lines, s =>
    let first := t.readLine index line s
    t.callsFrom (.ofLine line) s ::
      match first.failure with
      | some _ => []
      | none => t.callsByLine (index + 1) lines first.state

variable (t : Tokenizer σ)

/-- **The spans of a document are those of its calls.** -/
theorem readLines_spans (lines : List (List Char)) :
    ∀ (index : Nat) (s : σ), (t.readLines index lines s).spans =
      ((t.callsByLine index lines s).zipIdx index).flatMap fun p => p.1.map (t.callSpan p.2) := by
  induction lines with
  | nil =>
    intro index s
    rfl
  | cons line lines ih =>
    intro index s
    have hfirst : (t.readLine index line s).spans =
        (t.callsFrom (.ofLine line) s).map (t.callSpan index) := t.readFrom_spans index _ s
    rw [readLines, callsByLine, List.zipIdx_cons, List.flatMap_cons, ← hfirst]
    cases hfail : (t.readLine index line s).failure with
    | some failure => simp
    | none => simp only [ih]

/-! ## Histories -/

/-- `calls` are made one after the other, the first of them in the state
`s₀`, and leave the state `s`. -/
inductive History (s₀ : σ) : List (Call σ) → σ → Prop
  | start : History s₀ [] s₀
  | call {earlier : List (Call σ)} {k : Call σ} :
      History s₀ earlier k.state → k.Begins → History s₀ (earlier ++ [k]) (t.stepOf k).state

variable {t} {s₀ : σ}

/-- The last call of a history is made in the state that the calls before it
left. -/
theorem History.of_concat {earlier : List (Call σ)} {k : Call σ} {s : σ}
    (h : t.History s₀ (earlier ++ [k]) s) :
    t.History s₀ earlier k.state ∧ s = (t.stepOf k).state := by
  generalize hcalls : earlier ++ [k] = calls at h
  cases h with
  | start => simp at hcalls
  | call hearlier _ =>
    obtain ⟨rfl, hk⟩ := List.append_inj' hcalls rfl
    obtain rfl := List.singleton_inj.mp hk
    exact ⟨hearlier, rfl⟩

/-- **The calls on a line continue a history**, each has one, and where
the reading does not fail they lead to the state after the line. -/
theorem History.of_callsFrom (index : Nat) (c : Cursor) (s : σ) :
    ∀ before, t.History s₀ before s →
      (∀ earlier k later, t.callsFrom c s = earlier ++ k :: later →
        k.Begins ∧ t.History s₀ (before ++ earlier) k.state) ∧
      ((t.readFrom index c s).failure = none →
        t.History s₀ (before ++ t.callsFrom c s) (t.readFrom index c s).state) := by
  fun_induction Tokenizer.callsFrom t c s with
  | case1 c s hend =>
    intro before h
    refine ⟨?_, ?_⟩
    · intro earlier k later hcalls
      simp at hcalls
    · intro _
      rw [readFrom, if_pos hend, List.append_nil]
      exact h
  | case2 c s hend step hlt ih =>
    intro before h
    have hbegins : Call.Begins ⟨c.beginToken, s⟩ := by
      refine ⟨rfl, ?_⟩
      intro hnil
      exact hend (Cursor.atEnd_iff.mpr hnil)
    have hnext : t.History s₀ (before ++ [⟨c.beginToken, s⟩]) step.state := .call h hbegins
    obtain ⟨hcalls, hstate⟩ := ih (before ++ [⟨c.beginToken, s⟩]) hnext
    refine ⟨?_, ?_⟩
    · intro earlier k later heq
      cases earlier with
      | nil =>
        obtain ⟨rfl, -⟩ := List.cons.inj heq
        rw [List.append_nil]
        exact ⟨hbegins, h⟩
      | cons first earlier =>
        obtain ⟨rfl, htail⟩ := List.cons.inj heq
        have := hcalls earlier k later htail
        rwa [List.append_assoc] at this
    · intro hfail
      rw [readFrom, if_neg hend] at hfail ⊢
      simp only [step, hlt, if_true] at hfail hstate ⊢
      rw [List.append_assoc] at hstate
      exact hstate hfail
  | case3 c s hend step hlt =>
    intro before h
    refine ⟨?_, ?_⟩
    · intro earlier k later hcalls
      simp at hcalls
    · intro hfail
      rw [readFrom, if_neg hend] at hfail
      simp only [step, hlt, if_false] at hfail
      exact absurd hfail (by simp)

/-- **Every call of a document has the calls before it as its history.** -/
theorem history_of_callsByLine (lines : List (List Char)) :
    ∀ (index : Nat) (before : List (Call σ)) (s : σ), t.History s₀ before s →
      ∀ earlier k later, (t.callsByLine index lines s).flatten = earlier ++ k :: later →
        k.Begins ∧ t.History s₀ (before ++ earlier) k.state := by
  induction lines with
  | nil =>
    intro index before s h earlier k later hcalls
    simp [callsByLine] at hcalls
  | cons line lines ih =>
    intro index before s h earlier k later hcalls
    obtain ⟨hline, hstate⟩ := History.of_callsFrom index (.ofLine line) s before h
    rw [callsByLine, List.flatten_cons] at hcalls
    -- a call on a later line has the whole of this one before it
    have hlater (u : List (Call σ)) (hu : earlier = t.callsFrom (.ofLine line) s ++ u)
        (hrest : (match (t.readLine index line s).failure with
          | some _ => []
          | none => t.callsByLine (index + 1) lines
              (t.readLine index line s).state).flatten = u ++ k :: later) :
        k.Begins ∧ t.History s₀ (before ++ earlier) k.state := by
      cases hfail : (t.readLine index line s).failure with
      | some failure => simp [hfail] at hrest
      | none =>
        simp only [hfail] at hrest
        have := ih (index + 1) _ _ (hstate hfail) u k later hrest
        rwa [List.append_assoc, ← hu] at this
    rcases List.append_eq_append_iff.mp hcalls with ⟨u, hu, hrest⟩ | ⟨u, hu, hrest⟩
    · exact hlater u hu hrest
    · cases u with
      | nil => exact hlater [] (by simpa using hu.symm) hrest.symm
      | cons first u =>
        obtain ⟨rfl, -⟩ := List.cons.inj hrest
        exact hline earlier k u hu

end Tokenizer

end MixedMarkup
