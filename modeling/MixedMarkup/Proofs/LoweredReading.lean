import MixedMarkup.Proofs.History
import MixedMarkup.Proofs.LetterCase
/-!
# Reading a text in lower case

A cursor on a text in lower case stands where the same cursor on the text
itself stands, and whatever moves it without looking at letters moves both
alike: each move of the cursor commutes with putting the line in lower case,
and so does a scan for a mark without letters. For whole lines and documents
that is one relation on tokenizers: one reads in lower case what the other
reads as it is (`Tokenizer.ReadsLower`), and from there the spans are the same
but for their texts (`readLine_lower`, `readLines_lower`).
-/

namespace MixedMarkup

open Text

namespace Cursor

variable {c d : Cursor} {p : Char → Bool}

/-- The cursor at the same place on the line in lower case. -/
def lower (c : Cursor) : Cursor :=
  { c with
    before := c.before.map Char.toLower
    token := c.token.map Char.toLower
    rest := c.rest.map Char.toLower }

@[simp] theorem before_lower (c : Cursor) : c.lower.before = c.before.map Char.toLower := rfl

@[simp] theorem token_lower (c : Cursor) : c.lower.token = c.token.map Char.toLower := rfl

@[simp] theorem rest_lower (c : Cursor) : c.lower.rest = c.rest.map Char.toLower := rfl

theorem lower_ofLine (line : List Char) :
    (ofLine line).lower = .ofLine (line.map Char.toLower) := rfl

theorem line_lower (c : Cursor) : c.lower.line = c.line.map Char.toLower := by
  simp [line]

/-! ## Where it stands -/

@[simp] theorem start_lower (c : Cursor) : c.lower.start = c.start := byteSize_map_toLower _

@[simp] theorem pos_lower (c : Cursor) : c.lower.pos = c.pos := by simp [pos]

@[simp] theorem atEnd_lower (c : Cursor) : c.lower.atEnd = c.atEnd := List.isEmpty_map

@[simp] theorem atStart_lower (c : Cursor) : c.lower.atStart = c.atStart := by
  simp [atStart, List.isEmpty_map]

@[simp] theorem column_lower (c : Cursor) : c.lower.column = c.column :=
  columnWidth_map_toLower c.tabSize c.before

@[simp] theorem indentation_lower (c : Cursor) : c.lower.indentation = c.indentation := by
  rw [indentation, indentation, line_lower, leadingWidth, takeWhile_map_toLower isBlank_toLower]
  exact columnWidth_map_toLower c.tabSize _

/-! ## How it moves -/

theorem beginToken_lower (c : Cursor) : c.lower.beginToken = c.beginToken.lower := by
  simp [beginToken, lower]

theorem read_lower (n : Nat) (c : Cursor) : c.lower.read n = (c.read n).lower := by
  simp [read, lower, List.map_take, List.map_drop]

theorem skip_lower (h : CaseBlind p) (c : Cursor) : c.lower.skip p = (c.skip p).lower := by
  rw [skip, rest_lower, takeWhile_map_toLower h, List.length_map, read_lower]
  rfl

theorem unread_lower (n : Nat) (c : Cursor) : c.lower.unread n = (c.unread n).lower := by
  simp only [unread, token_lower, byteSize_map_toLower, splitBytes_map_toLower]
  simp [lower]

theorem readBytes_lower (n : Nat) (c : Cursor) : c.lower.readBytes n = (c.readBytes n).lower := by
  rw [readBytes, rest_lower, splitBytes_map_toLower, List.length_map, read_lower]
  rfl

theorem peek?_lower (c : Cursor) : c.lower.peek? = c.peek?.map Char.toLower := by
  simp [peek?]

theorem next?_lower (c : Cursor) :
    c.lower.next? = c.next?.map fun r => (r.1.toLower, r.2.lower) := by
  rw [next?, next?, peek?_lower, read_lower]
  cases c.peek? <;> rfl

theorem readIf?_lower (h : CaseBlind p) (c : Cursor) :
    c.lower.readIf? p = (c.readIf? p).map fun r => (r.1.toLower, r.2.lower) := by
  simp only [readIf?, peek?_lower, read_lower]
  cases c.peek? with
  | none => rfl
  | some x =>
    simp only [Option.map_some, h x]
    split <;> rfl

theorem readChar?_lower (ch : Char) (h : ch.isAlpha = false) (c : Cursor) :
    c.lower.readChar? ch = (c.readChar? ch).map lower := by
  rw [readChar?, readChar?, readIf?_lower (beq_toLower h)]
  cases c.readIf? (· == ch) <;> rfl

theorem readWhile?_lower (h : CaseBlind p) (c : Cursor) :
    c.lower.readWhile? p = (c.readWhile? p).map lower := by
  rw [readWhile?, readWhile?, readIf?_lower h, skip_lower h]
  cases c.readIf? p <;> rfl

theorem readBlanks?_lower (c : Cursor) : c.lower.readBlanks? = c.readBlanks?.map lower :=
  readWhile?_lower isBlank_toLower c

theorem readLiteral?_lower {literal : List Char} (h : ∀ x ∈ literal, x.isAlpha = false)
    (c : Cursor) : c.lower.readLiteral? literal = (c.readLiteral? literal).map lower := by
  simp only [readLiteral?, rest_lower, isPrefixOf_map_toLower h, read_lower]
  split <;> rfl

theorem readLiteralAnyCase?_lower (literal : List Char) (c : Cursor) :
    c.lower.readLiteralAnyCase? literal = (c.readLiteralAnyCase? literal).map lower := by
  simp only [readLiteralAnyCase?, rest_lower, map_toLower_map_toLower, read_lower]
  split <;> rfl

/-- A move is told by how much it takes. -/
theorem Took.eq_read {text : List Char} (h : c.Took text d) : d = c.read text.length := by
  obtain ⟨before, token, rest, tabSize⟩ := d
  obtain ⟨hbefore, htoken, hrest, htab⟩ := h
  dsimp only at hbefore htoken hrest htab
  rw [hbefore, htoken, htab, read, hrest, List.take_left, List.drop_left]

/-- What a move takes in lower case is what it takes, in lower case. -/
theorem Took.lower {text : List Char} (h : c.Took text d) :
    c.lower.Took (text.map Char.toLower) d.lower where
  before := congrArg (List.map Char.toLower) h.before
  token := by simp [h.token]
  rest := by simp [h.rest]
  tabSize := h.tabSize

theorem Advances.lower (h : c.Advances d) : c.lower.Advances d.lower := by
  obtain ⟨text, hne, htook⟩ := h
  exact ⟨text.map Char.toLower, by simpa using hne, htook.lower⟩

end Cursor

/-- A mark without letters is found at the same place. -/
theorem Scan.through_map_toLower {mark : List Char} (h : ∀ x ∈ mark, x.isAlpha = false)
    (text : List Char) : through mark (text.map Char.toLower) = through mark text := by
  induction text with
  | nil => rfl
  | cons c text ih =>
    have hstart := isPrefixOf_map_toLower h (c :: text)
    rw [List.map_cons] at hstart
    rw [List.map_cons, through, through, hstart, ih]

/-! ## Documents -/

theorem splitLines_map_toLower (text : List Char) :
    splitLines (text.map Char.toLower) = (splitLines text).map (·.map Char.toLower) := by
  induction text with
  | nil => rfl
  | cons c text ih =>
    have hfeed : (c.toLower == '\n') = (c == '\n') := beq_toLower (by decide) c
    rw [List.map_cons, splitLines, splitLines, hfeed, ih]
    split
    · rfl
    · cases splitLines text <;> rfl

theorem dropReturn_map_toLower (line : List Char) :
    dropReturn (line.map Char.toLower) = (dropReturn line).map Char.toLower := by
  have hreturn : CaseBlind (· == '\r') := beq_toLower (by decide)
  have hlast : ((line.map Char.toLower).getLast? == some '\r') =
      (line.getLast? == some '\r') := by
    rw [List.getLast?_map]
    cases line.getLast? with
    | none => rfl
    | some c => exact hreturn c
  rw [dropReturn, dropReturn, hlast]
  split
  · exact List.map_dropLast.symm
  · rfl

theorem finishLines_map_toLower (lines : List (List Char)) :
    finishLines (lines.map (·.map Char.toLower)) =
      (finishLines lines).map (·.map Char.toLower) := by
  induction lines with
  | nil => rfl
  | cons line lines ih =>
    cases lines with
    | nil =>
      simp only [List.map_cons, List.map_nil, finishLines, List.isEmpty_map]
      split <;> rfl
    | cons next lines =>
      simp only [List.map_cons, finishLines] at ih ⊢
      rw [ih, dropReturn_map_toLower]

/-- **The lines of a source in lower case** are its lines in lower case. -/
theorem linesOf_toLower (source : String) :
    linesOf source.toLower = (linesOf source).map (·.map Char.toLower) := by
  have hchars : source.toLower.toList = source.toList.map Char.toLower := String.toList_map
  rw [linesOf, linesOf, hchars, splitLines_map_toLower, finishLines_map_toLower]

/-- The first line of a text starts it, and all lines stand in it. -/
theorem splitLines_within (text : List Char) :
    (∀ line ∈ (splitLines text).head?, line <+: text) ∧
      ∀ line ∈ splitLines text, line <:+: text := by
  induction text with
  | nil => simp [splitLines]
  | cons c text ih =>
    have hlater : ∀ line ∈ splitLines text, line <:+: c :: text := fun line hline =>
      (ih.2 line hline).trans (List.suffix_cons c text).isInfix
    rw [splitLines]
    split
    · refine ⟨by simp, fun line hline => ?_⟩
      rcases List.mem_cons.mp hline with rfl | hline
      · exact List.nil_infix
      · exact hlater line hline
    · cases hlines : splitLines text with
      | nil =>
        have hsingle : [c] <+: c :: text := ⟨text, rfl⟩
        simp [hsingle.isInfix]
      | cons first lines =>
        rw [hlines] at ih hlater
        have hfirst : c :: first <+: c :: text :=
          List.cons_prefix_cons.mpr ⟨rfl, ih.1 first rfl⟩
        refine ⟨by simpa using hfirst, fun line hline => ?_⟩
        rcases List.mem_cons.mp hline with rfl | hline
        · exact hfirst.isInfix
        · exact hlater line (by simp [hline])

theorem dropReturn_starts (line : List Char) : dropReturn line <+: line := by
  rw [dropReturn]
  split
  · exact List.dropLast_prefix line
  · exact List.prefix_refl line

/-- Finishing lines cuts them at their ends. -/
theorem exists_of_mem_finishLines {lines : List (List Char)} {line : List Char}
    (h : line ∈ finishLines lines) : ∃ whole ∈ lines, line <+: whole := by
  induction lines with
  | nil => simp [finishLines] at h
  | cons first lines ih =>
    cases lines with
    | nil =>
      simp only [finishLines] at h
      split at h
      · simp at h
      · obtain rfl := List.mem_singleton.mp h
        exact ⟨line, by simp, List.prefix_refl line⟩
    | cons next lines =>
      simp only [finishLines] at h
      rcases List.mem_cons.mp h with rfl | h
      · exact ⟨first, by simp, dropReturn_starts first⟩
      · obtain ⟨whole, hwhole, hline⟩ := ih h
        exact ⟨whole, List.mem_cons_of_mem _ hwhole, hline⟩

/-- **A line stands in the source.** -/
theorem infix_of_mem_linesOf {source : String} {line : List Char} (h : line ∈ linesOf source) :
    line <:+: source.toList := by
  obtain ⟨whole, hwhole, hline⟩ := exists_of_mem_finishLines h
  exact hline.isInfix.trans ((splitLines_within source.toList).2 whole hwhole)

/-! ## Tokens and spans -/

/-- The same token of the line in lower case. -/
def Step.lower {σ : Type} (r : Step σ) : Step σ := { r with cursor := r.cursor.lower }

/-- The same span of the line in lower case. -/
def Span.lower (sp : Span) : Span :=
  { sp with text := String.ofList (sp.text.toList.map Char.toLower) }

/-- The same call on the line in lower case. -/
def Call.lower {σ : Type} (k : Call σ) : Call σ := { k with cursor := k.cursor.lower }

/-- The same reading of lines in lower case. -/
def Reading.lower {σ : Type} (r : Reading σ) : Reading σ :=
  { r with spans := r.spans.map Span.lower }

namespace Tokenizer

variable {σ : Type}

/-- On texts in `ok` and in states in `inv` the first tokenizer makes in lower
case the tokens that the second one makes, and leaves the same states. -/
structure ReadsLower (t t' : Tokenizer σ) (ok : List Char → Prop) (inv : σ → Prop) : Prop where
  grammar : ∀ s, t.grammar s = t'.grammar s
  consumes : t'.Consumes
  suffix : ∀ {text left : List Char}, ok text → left <:+ text → ok left
  token : ∀ (c : Cursor) (s : σ), c.token = [] → c.rest ≠ [] → ok c.rest → inv s →
    t.token c.lower s = (t'.token c s).lower ∧ inv (t'.token c s).state

namespace ReadsLower

variable {t t' : Tokenizer σ} {ok : List Char → Prop} {inv : σ → Prop}
variable {c d : Cursor} {s s' : σ} {calls : List (Call σ)}

/-- **A run in lower case** is the run, call by call. -/
theorem run (h : t.ReadsLower t' ok inv) (hrun : t'.Run c s calls d s') (hok : ok c.rest)
    (hs : inv s) :
    t.Run c.lower s (calls.map Call.lower) d.lower s' ∧ inv s' ∧
      ∀ k ∈ calls, t.stepOf k.lower = (t'.stepOf k).lower := by
  induction hrun with
  | done c s => exact ⟨.done _ _, hs, by simp⟩
  | @call c d s s' calls hadv hrun ih =>
    have hrest : c.rest ≠ [] := by
      intro hnil
      have hend := hadv.atEnd
      simp [Cursor.atEnd, hnil] at hend
    obtain ⟨htoken, hs₁⟩ := h.token c.beginToken s rfl hrest hok hs
    obtain ⟨text, hne, htook⟩ := hadv
    have hok₁ : ok (t'.token c.beginToken s).cursor.rest :=
      h.suffix hok ⟨text, htook.rest.symm⟩
    obtain ⟨hrun', hs', hcalls⟩ := ih hok₁ hs₁
    rw [← Cursor.beginToken_lower] at htoken
    have hstep : t.token c.lower.beginToken s = (t'.token c.beginToken s).lower := htoken
    refine ⟨?_, hs', ?_⟩
    · rw [List.map_cons]
      have hcall : Call.lower ⟨c.beginToken, s⟩ = ⟨c.lower.beginToken, s⟩ := by
        rw [Call.lower, Cursor.beginToken_lower]
      rw [hcall]
      refine .call ?_ ?_
      · rw [hstep, Cursor.beginToken_lower]
        exact Cursor.Advances.lower ⟨text, hne, htook⟩
      · rw [hstep]
        exact hrun'
    · intro k hk
      rcases List.mem_cons.mp hk with rfl | hk
      · simp only [stepOf, Call.lower, ← Cursor.beginToken_lower, hstep]
      · exact hcalls k hk

/-- The span of a call in lower case. -/
theorem callSpan (h : t.ReadsLower t' ok inv) {k : Call σ}
    (hk : t.stepOf k.lower = (t'.stepOf k).lower) (index : Nat) :
    t.callSpan index k.lower = (t'.callSpan index k).lower := by
  simp only [Tokenizer.callSpan, hk, spanOf, Step.lower, Span.lower, Cursor.start_lower,
    Cursor.pos_lower, Cursor.token_lower, h.grammar, String.toList_ofList]

/-- **A line in lower case** is read by the same calls, and the spans are the
same but for their texts. -/
theorem readLine_lower (h : t.ReadsLower t' ok inv) {line : List Char} (hok : ok line)
    (hs : inv s) (index : Nat) :
    t.readLine index (line.map Char.toLower) s = (t'.readLine index line s).lower ∧
      inv (t'.readLine index line s).state ∧
      t.callsFrom (.ofLine (line.map Char.toLower)) s =
        (t'.callsFrom (.ofLine line) s).map Call.lower ∧
      ∀ k ∈ t'.callsFrom (.ofLine line) s, t.stepOf k.lower = (t'.stepOf k).lower := by
  obtain ⟨calls, d, s', hrun, hend⟩ := h.consumes.exists_run (.ofLine line) s
  obtain ⟨hrun', hs', hcalls⟩ := h.run hrun hok hs
  have hend' : d.lower.rest = [] := by simp [hend]
  have hread := hrun.readFrom_eq index
  have hread' := hrun'.readFrom_eq index
  rw [readFrom_of_atEnd _ hend] at hread
  rw [readFrom_of_atEnd _ hend'] at hread'
  have hfrom := hrun.callsFrom_eq
  have hfrom' := hrun'.callsFrom_eq
  rw [callsFrom_of_atEnd _ hend, List.append_nil] at hfrom
  rw [callsFrom_of_atEnd _ hend', List.append_nil] at hfrom'
  refine ⟨?_, ?_, ?_, ?_⟩
  · rw [readLine, readLine, ← Cursor.lower_ofLine, hread, hread']
    have hspans : (calls.map Call.lower).map (t.callSpan index) =
        (calls.map (t'.callSpan index)).map Span.lower := by
      rw [List.map_map, List.map_map]
      exact List.map_congr_left fun k hk => h.callSpan (hcalls k hk) index
    simp only [Reading.lower, hspans, List.append_nil]
  · rw [readLine, hread]
    exact hs'
  · rw [← Cursor.lower_ofLine, hfrom', hfrom]
  · rw [hfrom]
    exact hcalls

/-- **And so are lines.** -/
theorem readLines_lower (h : t.ReadsLower t' ok inv) {lines : List (List Char)}
    (hok : ∀ line ∈ lines, ok line) :
    ∀ (index : Nat) (s : σ), inv s →
      t.readLines index (lines.map (·.map Char.toLower)) s = (t'.readLines index lines s).lower ∧
        t.callsByLine index (lines.map (·.map Char.toLower)) s =
          (t'.callsByLine index lines s).map (·.map Call.lower) ∧
        ∀ calls ∈ t'.callsByLine index lines s, ∀ k ∈ calls,
          t.stepOf k.lower = (t'.stepOf k).lower := by
  induction lines with
  | nil => exact fun _ _ _ => ⟨rfl, rfl, by simp [callsByLine]⟩
  | cons line lines ih =>
    intro index s hs
    obtain ⟨hline, hs', hfrom, hcalls⟩ := h.readLine_lower (hok line (by simp)) hs index
    have hfailure := (h.consumes.readLine_tiles index line s).1
    have hfailure' : (t'.readLine index line s).lower.failure = none := hfailure
    have hstate : (t'.readLine index line s).lower.state = (t'.readLine index line s).state := rfl
    obtain ⟨htail, hfromTail, hcallsTail⟩ :=
      ih (fun line hmem => hok line (by simp [hmem])) (index + 1) _ hs'
    simp only [List.map_cons, readLines, callsByLine, hline, hfailure, hfailure', hstate, hfrom,
      htail, hfromTail]
    refine ⟨by simp [Reading.lower], trivial, fun calls hmem => ?_⟩
    rcases List.mem_cons.mp hmem with rfl | hmem
    · exact hcalls
    · exact hcallsTail calls hmem

end ReadsLower

end Tokenizer

end MixedMarkup
