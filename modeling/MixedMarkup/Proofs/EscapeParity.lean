import MixedMarkup.Proofs.Passages
import MixedMarkup.Proofs.RegionLeaving
import Mathlib.Algebra.Group.Nat.Even
/-!
# Strings and templates — which quote ends them

A scan for a quote keeps a flag that a backslash turns, and that every other
character takes back. What the flag stands for is a count: the quote that
ends the scan is the first one with an even run of backslashes right before
it (`QuoteEndsAt`). The invariant is that the flag is set where the run
before the cursor is odd, and one induction over the text carries it to the
end of the scan (`Scan.quoted_cases`).

Strings of scripts and of stylesheets end at such a quote or with their line.
A template literal without one goes on below, and on the next line the count
begins anew (`escapes_by_parity`).
-/

namespace MixedMarkup

open Cursor Text

namespace Text

variable {quote c : Char} {text before : List Char} {i : Nat}

/-- The length of the run of backslashes at the end of a text. -/
def backslashesAtEnd (text : List Char) : Nat := (text.reverse.takeWhile (· == '\\')).length

/-- The quote stands at an offset, counted in characters, and the run of
backslashes right before it is even. -/
def QuoteEndsAt (quote : Char) (text : List Char) (i : Nat) : Prop :=
  text[i]? = some quote ∧ Even (backslashesAtEnd (text.take i))

theorem backslashesAtEnd_concat (text : List Char) (c : Char) :
    backslashesAtEnd (text ++ [c]) = if c = '\\' then backslashesAtEnd text + 1 else 0 := by
  by_cases hc : c = '\\' <;> simp [backslashesAtEnd, hc]

/-- A text without the quote has no end of the string. -/
theorem not_quoteEndsAt_of_not_mem (h : quote ∉ text) (i : Nat) : ¬ QuoteEndsAt quote text i :=
  fun hends => h (List.mem_of_getElem? hends.1)

theorem not_quoteEndsAt_of_le (h : text.length ≤ i) : ¬ QuoteEndsAt quote text i := by
  rintro ⟨hquote, -⟩
  simp [List.getElem?_eq_none h] at hquote

/-- What stands behind a text decides at its offset. -/
theorem quoteEndsAt_append_cons :
    QuoteEndsAt quote (before ++ c :: text) before.length ↔
      c = quote ∧ Even (backslashesAtEnd before) := by
  simp [QuoteEndsAt]

end Text

/-! ## Scans -/

namespace Scan

variable {quote c : Char} {text before : List Char}

/-- The flag of a scan behind a text that ends in the given run. -/
def escapedBy (before : List Char) : Bool := !decide (Even (backslashesAtEnd before))

/-- **A character keeps the flag in step with the run.** -/
theorem escapedBy_concat (before : List Char) (c : Char) :
    escapedBy (before ++ [c]) = (!escapedBy before && c == '\\') := by
  by_cases hc : c = '\\'
  · subst hc
    simp only [escapedBy, backslashesAtEnd_concat, if_true, Nat.even_add_one, decide_not,
      beq_self_eq_true, Bool.and_true]
  · simp [escapedBy, backslashesAtEnd_concat, hc]

/-- **A scan that goes on behind a text** ends at the first quote there that
ends the string, or with the line. -/
theorem quoted_cases (quote : Char) (before text : List Char) :
    (∃ i, quoted quote (escapedBy before) text = ⟨i + 1, true⟩ ∧
        QuoteEndsAt quote (before ++ text) (before.length + i) ∧
        ∀ j, j < i → ¬ QuoteEndsAt quote (before ++ text) (before.length + j)) ∨
      quoted quote (escapedBy before) text = ⟨text.length, false⟩ ∧
        ∀ j, ¬ QuoteEndsAt quote (before ++ text) (before.length + j) := by
  -- the text scanned grows by a character, and the flag follows its run
  induction text generalizing before with
  | nil => exact .inr ⟨rfl, fun j => not_quoteEndsAt_of_le (by simp)⟩
  | cons c text ih =>
    have hhere : (c == quote && !escapedBy before) = true ↔
        QuoteEndsAt quote (before ++ c :: text) before.length := by
      simp [quoteEndsAt_append_cons, escapedBy]
    by_cases hquote : (c == quote && !escapedBy before) = true
    · refine .inl ⟨0, by rw [quoted, if_pos hquote], hhere.mp hquote, ?_⟩
      intro j hj
      exact absurd hj (Nat.not_lt_zero j)
    have hscan : quoted quote (escapedBy before) (c :: text) =
        (quoted quote (escapedBy (before ++ [c])) text).after := by
      rw [quoted, if_neg hquote, escapedBy_concat]
    have hlater (j : Nat) : QuoteEndsAt quote (before ++ c :: text) (before.length + (j + 1)) ↔
        QuoteEndsAt quote ((before ++ [c]) ++ text) ((before ++ [c]).length + j) := by
      rw [List.append_assoc, List.singleton_append, List.length_append, List.length_singleton,
        Nat.add_assoc, Nat.add_comm 1 j]
    rcases ih (before ++ [c]) with ⟨i, hfound, hends, hfirst⟩ | ⟨hnone, hfree⟩
    · refine .inl ⟨i + 1, by rw [hscan, hfound, after], (hlater i).mpr hends, ?_⟩
      intro j hj
      cases j with
      | zero => exact fun h => hquote (hhere.mpr h)
      | succ j => exact fun h => hfirst j (by omega) ((hlater j).mp h)
    · refine .inr ⟨by rw [hscan, hnone, after, List.length_cons], ?_⟩
      intro j
      cases j with
      | zero => exact fun h => hquote (hhere.mpr h)
      | succ j => exact fun h => hfree j ((hlater j).mp h)

end Scan

namespace Cursor

variable {quote : Char} {opener text : List Char} {c d : Cursor} {closed : Bool}

/-- `d` stands where a quoted text leaves `c`, which has the opener and the
text ahead: behind the first quote in the text that ends it, or, if there is
none, behind all of the text. -/
inductive ReadsQuoted (quote : Char) (opener text : List Char) (c : Cursor) :
    Cursor → Bool → Prop
  | closed {d : Cursor} {i : Nat} : IsLeast {i | QuoteEndsAt quote text i} i →
      c.Took (opener ++ text.take (i + 1)) d → ReadsQuoted quote opener text c d true
  | unclosed {d : Cursor} : (∀ i, ¬ QuoteEndsAt quote text i) →
      c.Took (opener ++ text) d → ReadsQuoted quote opener text c d false

/-- **A scan reads a quoted text**, behind an opener that has been read. -/
theorem readsQuoted_read {e : Cursor} (hopener : c.Took opener e) (htext : e.rest = text) :
    c.ReadsQuoted quote opener text (e.read (Scan.quoted quote false text).width)
      (Scan.quoted quote false text).closed := by
  have htook := took_read (Scan.quoted quote false text).width e
  rw [htext] at htook
  have hcases := Scan.quoted_cases quote [] text
  have hflag : Scan.escapedBy [] = false := by decide
  simp only [hflag, List.nil_append, List.length_nil, Nat.zero_add] at hcases
  rcases hcases with ⟨i, hscan, hends, hfirst⟩ | ⟨hscan, hfree⟩
  · rw [hscan] at htook ⊢
    refine .closed ⟨hends, ?_⟩ (hopener.trans htook)
    intro j hj
    exact Nat.le_of_not_lt fun hlt => hfirst j hlt hj
  · rw [hscan, List.take_length] at htook
    rw [hscan]
    exact .unclosed hfree (hopener.trans htook)

/-- Where a quote ends the text, the text is closed by it. -/
theorem ReadsQuoted.of_isLeast {i : Nat} (h : c.ReadsQuoted quote opener text d closed)
    (hi : IsLeast {i | QuoteEndsAt quote text i} i) :
    closed = true ∧ c.Took (opener ++ text.take (i + 1)) d := by
  cases h with
  | closed hleast htook => exact ⟨rfl, hi.unique hleast ▸ htook⟩
  | unclosed hfree => exact absurd hi.1 (hfree i)

/-- And where none does, it is not. -/
theorem ReadsQuoted.of_forall_not (h : c.ReadsQuoted quote opener text d closed)
    (hfree : ∀ i, ¬ QuoteEndsAt quote text i) : closed = false ∧ c.Took (opener ++ text) d := by
  cases h with
  | closed hleast _ => exact absurd hleast.1 (hfree _)
  | unclosed _ htook => exact ⟨rfl, htook⟩

end Cursor

/-! ## Strings -/

/-- The marks around strings. -/
def IsStringMark (mark : Char) : Prop := mark = '\x22' ∨ mark = '\x27'

theorem IsStringMark.isBlank {mark : Char} (h : IsStringMark mark) : isBlank mark = false := by
  rcases h with rfl | rfl <;> decide

variable {mark : Char} {c : Cursor} {text : List Char}

/-- The mark is taken, and the text behind it is left. -/
theorem took_mark (hrest : c.rest = mark :: text) :
    c.Took [mark] (c.read 1) ∧ (c.read 1).rest = text :=
  ⟨took_read_one (by simp [peek?, hrest]), by simp [Cursor.read, hrest]⟩

/-- A string is read through the quote that ends it. -/
theorem readsQuoted_string (hrest : c.rest = mark :: text) :
    ∃ closed, c.ReadsQuoted mark [mark] text ((c.read 1).readString mark) closed := by
  obtain ⟨htook, hleft⟩ := took_mark hrest
  refine ⟨(Scan.quoted mark false text).closed, ?_⟩
  rw [readString, hleft]
  exact readsQuoted_read htook hleft

theorem Script.token_of_mark (hmark : IsStringMark mark) (hrest : c.rest = mark :: text)
    {s : State} (hzone : s.zone = .code) :
    token c s =
      ⟨some .string, (c.read 1).readString mark, { enter c s with previous := .other }⟩ := by
  have hblanks := Markup.readBlanks?_of_peek? (c := c) (by simp [peek?, hrest]) hmark.isBlank
  have hlexeme : lexeme? c.rest = some (.quote mark, 1) := by
    rw [hrest]
    rcases hmark with rfl | rfl <;> rfl
  simp only [token, hzone, inCode_of_lexeme hblanks hlexeme, finish]

theorem Stylesheet.token_of_mark (hmark : IsStringMark mark) (hrest : c.rest = mark :: text)
    {s : State} (hzone : s.zone = .rules) :
    token c s = ⟨some .string, (c.read 1).readString mark, { enter c s with pseudo := false }⟩ := by
  have hblanks := Markup.readBlanks?_of_peek? (c := c) (by simp [peek?, hrest]) hmark.isBlank
  have hlexeme : lexeme? c.rest = some (.quote mark, 1) := by
    rw [hrest]
    rcases hmark with rfl | rfl <;> rfl
  simp only [token, hzone, inRules_of_lexeme hblanks hlexeme, finish, lexemeStyle, afterLexeme]

/-! ## Template literals -/

namespace Script

variable {s s' : State} {opener : List Char}

/-- A call reads a template literal, or what there is of it on the line. -/
structure ReadsTemplate (o : Options) (c : Cursor) (s : State) (opener text : List Char) :
    Prop where
  style : ((tokenizer o).token c s).style = some .string
  reads : ∃ closed, c.ReadsQuoted templateMark opener text ((tokenizer o).token c s).cursor closed ∧
    ((tokenizer o).token c s).state.zone = if closed then .code else .template

/-- A call that scans for the mark, behind an opener that has been read. -/
theorem ReadsTemplate.of_inTemplate {o : Options} {e : Cursor}
    (htoken : (tokenizer o).token c s = inTemplate e s') (hopener : c.Took opener e)
    (htext : e.rest = text) : ReadsTemplate o c s opener text := by
  refine ⟨by rw [htoken]; rfl, (Scan.quoted templateMark false text).closed, ?_, ?_⟩
  · rw [htoken, inTemplate, htext]
    exact readsQuoted_read hopener htext
  · rw [htoken, inTemplate, htext]

/-- **A template literal that begins** is read through the mark that ends it. -/
theorem readsTemplate_of_mark (o : Options) (hrest : c.rest = templateMark :: text)
    (hzone : s.zone = .code) : ReadsTemplate o c s [templateMark] text := by
  have hblanks := Markup.readBlanks?_of_peek? (c := c) (by simp [peek?, hrest])
    (by decide : isBlank templateMark = false)
  have hlexeme : lexeme? c.rest = some (.template, 1) := by
    rw [hrest]
    rfl
  have htoken : (tokenizer o).token c s =
      inTemplate (c.read 1) { enter c s with previous := .other } := by
    change token c s = _
    simp only [token, hzone, inCode_of_lexeme hblanks hlexeme, finish]
  obtain ⟨htook, hleft⟩ := took_mark hrest
  exact .of_inTemplate htoken htook hleft

/-- **One that goes on** is read on like one that begins, whatever backslashes
the line before ended with. -/
theorem readsTemplate_of_zone (o : Options) (c : Cursor) (hzone : s.zone = .template) :
    ReadsTemplate o c s [] c.rest := by
  have htoken : (tokenizer o).token c s = inTemplate c (enter c s) := by
    change token c s = _
    simp only [token, hzone]
  exact .of_inTemplate htoken (.refl c) rfl

/-- A line that the mark does not end is all template, and so is the next one
in its beginning. -/
theorem ReadsTemplate.passage {o : Options} (h : ReadsTemplate o c.beginToken s opener text)
    (hne : opener ++ text ≠ []) (hrest : c.rest = opener ++ text)
    (hfree : ∀ i, ¬ QuoteEndsAt templateMark text i) (later : List (List Char)) :
    ∃ d s', (tokenizer o).Passage (· = some .string) ⟨c, later⟩ s ⟨d, later⟩ s' ∧
      d.rest = [] ∧ s'.zone = .template := by
  obtain ⟨closed, hreads, hzone⟩ := h.reads
  obtain ⟨rfl, htook⟩ := hreads.of_forall_not hfree
  have hleft : c.beginToken.rest = (opener ++ text) ++ [] := by simpa using hrest
  exact ⟨_, _, .single hne htook h.style later, htook.rest_eq hleft, hzone⟩

/-- **Lines that the mark does not end** are template literal all over. -/
theorem passage_lines (o : Options) {lines : List (List Char)}
    (hfree : ∀ line ∈ lines, ∀ i, ¬ QuoteEndsAt templateMark line i) (below : List (List Char)) :
    ∀ {c : Cursor} {s : State}, c.rest = [] → s.zone = .template →
      ∃ d s', (tokenizer o).Passage (· = some .string) ⟨c, lines ++ below⟩ s ⟨d, below⟩ s' ∧
        d.rest = [] ∧ s'.zone = .template := by
  induction lines with
  | nil =>
    intro c s hrest hzone
    exact ⟨c, s, .done _ _, hrest, hzone⟩
  | cons line lines ih =>
    intro c s hrest hzone
    obtain ⟨hline, hlines⟩ := List.forall_mem_cons.mp hfree
    obtain ⟨d, s', hfirst, hd, hs'⟩ : ∃ d s', (tokenizer o).Passage (· = some .string)
        ⟨.ofLine line, lines ++ below⟩ s ⟨d, lines ++ below⟩ s' ∧ d.rest = [] ∧
        s'.zone = .template := by
      -- no call is made on an empty line
      by_cases hne : line = []
      · exact ⟨_, _, .done _ _, hne, hzone⟩
      · have hreads := readsTemplate_of_zone o (Cursor.ofLine line).beginToken hzone
        exact hreads.passage hne rfl hline _
    obtain ⟨d', s'', hmore, hd', hs''⟩ := ih hlines hd hs'
    exact ⟨d', s'', .line hrest (hfirst.trans hmore), hd', hs''⟩

/-- A line that the mark ends is template up to the mark, and code behind it. -/
theorem passage_lastLine (o : Options) {last : List Char} {i : Nat} {c : Cursor}
    (hrest : c.rest = []) (hzone : s.zone = .template)
    (hi : IsLeast {i | QuoteEndsAt templateMark last i} i) (below : List (List Char)) :
    ∃ d s', (tokenizer o).Passage (· = some .string) ⟨c, last :: below⟩ s ⟨d, below⟩ s' ∧
      d.rest = last.drop (i + 1) ∧ s'.zone = .code := by
  have hreads := readsTemplate_of_zone o (Cursor.ofLine last).beginToken hzone
  obtain ⟨closed, hquoted, hcode⟩ := hreads.reads
  obtain ⟨rfl, htook⟩ := hquoted.of_isLeast hi
  have hne : last.take (i + 1) ≠ [] := by
    rw [Ne, List.take_eq_nil_iff]
    rintro (h | rfl)
    · exact absurd h (Nat.succ_ne_zero i)
    · exact not_quoteEndsAt_of_le (Nat.zero_le i) hi.1
  exact ⟨_, _, .line hrest (.single hne htook hreads.style below),
    htook.rest_eq (List.take_append_drop (i + 1) last).symm, hcode⟩

end Script

/-- **Escapes are decided by the parity of backslashes.** A quote that begins
a string, in code or among rules, makes a string token that goes through the
first quote of its kind with an even run of backslashes right before it, and
to the end of the line if there is none; either way the next token is read
from code, or from rules. A template literal goes through the first such mark
on the line where it begins, and on each line where it goes on; it is left
exactly if there is one. So a literal over lines ends on the first line with
such a mark, whatever the lines before end with, and all of it is string
tokens. -/
theorem escapes_by_parity (o : Options) (c : Cursor) :
    (∀ (mark : Char) (text : List Char), IsStringMark mark → c.rest = mark :: text →
      (∀ s : Script.State, s.zone = .code →
        let step := (Script.tokenizer o).token c.beginToken s
        step.style = some .string ∧ step.state.zone = .code ∧
          ∃ closed, c.beginToken.ReadsQuoted mark [mark] text step.cursor closed) ∧
      ∀ s : Stylesheet.State, s.zone = .rules →
        let step := (Stylesheet.tokenizer o).token c.beginToken s
        step.style = some .string ∧ step.state.zone = .rules ∧
          ∃ closed, c.beginToken.ReadsQuoted mark [mark] text step.cursor closed) ∧
    (∀ (text : List Char) (s : Script.State), c.rest = Script.templateMark :: text →
      s.zone = .code → Script.ReadsTemplate o c.beginToken s [Script.templateMark] text) ∧
    (∀ s : Script.State, s.zone = .template → Script.ReadsTemplate o c.beginToken s [] c.rest) ∧
    ∀ (text last : List Char) (more below : List (List Char)) (i : Nat) (s : Script.State),
      c.rest = Script.templateMark :: text → s.zone = .code →
      (∀ line ∈ text :: more, ∀ j, ¬ QuoteEndsAt Script.templateMark line j) →
      IsLeast {j | QuoteEndsAt Script.templateMark last j} i →
      ∃ d s', (Script.tokenizer o).Passage (· = some .string) ⟨c, more ++ last :: below⟩ s
          ⟨d, below⟩ s' ∧ d.rest = last.drop (i + 1) ∧ s'.zone = .code := by
  refine ⟨?_, ?_, ?_, ?_⟩
  · intro mark text hmark hrest
    obtain ⟨closed, hreads⟩ := readsQuoted_string (c := c.beginToken) hrest
    constructor
    · intro s hzone step
      have hstep : step = ⟨some .string, _, _⟩ :=
        Script.token_of_mark (c := c.beginToken) hmark hrest hzone
      rw [hstep]
      exact ⟨rfl, hzone, closed, hreads⟩
    · intro s hzone step
      have hstep : step = ⟨some .string, _, _⟩ :=
        Stylesheet.token_of_mark (c := c.beginToken) hmark hrest hzone
      rw [hstep]
      exact ⟨rfl, hzone, closed, hreads⟩
  · intro text s hrest hzone
    exact Script.readsTemplate_of_mark o (c := c.beginToken) hrest hzone
  · intro s hzone
    exact Script.readsTemplate_of_zone o c.beginToken hzone
  · intro text last more below i s hrest hzone hfree hi
    obtain ⟨htext, hmore⟩ := List.forall_mem_cons.mp hfree
    obtain ⟨d₁, s₁, hfirst, hd₁, hs₁⟩ :=
      (Script.readsTemplate_of_mark o (c := c.beginToken) hrest hzone).passage (by simp) hrest htext
        (more ++ last :: below)
    obtain ⟨d₂, s₂, hlines, hd₂, hs₂⟩ := Script.passage_lines o hmore (last :: below) hd₁ hs₁
    obtain ⟨d, s', hlast, hd, hs'⟩ := Script.passage_lastLine o hd₂ hs₂ hi below
    exact ⟨d, s', (hfirst.trans hlines).trans hlast, hd, hs'⟩

/-- A string with an escaped quote and an escaped backslash, and a template
literal whose first line ends with a backslash. -/
theorem escapes_by_parity_across_lines :
    (let c := (Cursor.ofLine "\x22a\\\x22b\\\\\x22c".toList).beginToken
      let step := (Script.tokenizer {}).token c (.initial 0)
      (∃ closed, c.ReadsQuoted '\x22' ['\x22'] "a\\\x22b\\\\\x22c".toList step.cursor closed) ∧
        step.cursor.token = "\x22a\\\x22b\\\\\x22".toList) ∧
    ∃ d s', (Script.tokenizer {}).Passage (· = some .string)
        ⟨.ofLine "\x60a\\".toList, ["\x60+1".toList]⟩ (.initial 0) ⟨d, []⟩ s' ∧
      d.rest = "+1".toList ∧ s'.zone = .code := by
  constructor
  · obtain ⟨hstring, -⟩ := escapes_by_parity {} (.ofLine "\x22a\\\x22b\\\\\x22c".toList)
    obtain ⟨-, -, hreads⟩ :=
      (hstring '\x22' "a\\\x22b\\\\\x22c".toList (.inl rfl) rfl).1 (.initial 0) rfl
    exact ⟨hreads, by decide +kernel⟩
  · obtain ⟨-, -, -, hlines⟩ := escapes_by_parity {} (.ofLine "\x60a\\".toList)
    have hfree : ∀ line ∈ ["a\\".toList], ∀ j, ¬ QuoteEndsAt Script.templateMark line j := by
      intro line hline
      rw [List.mem_singleton] at hline
      exact not_quoteEndsAt_of_not_mem (by rw [hline]; decide)
    have hleast : IsLeast {j | QuoteEndsAt Script.templateMark "\x60+1".toList j} 0 :=
      ⟨⟨rfl, by decide⟩, fun j _ => Nat.zero_le j⟩
    exact hlines "a\\".toList "\x60+1".toList [] [] 0 (.initial 0) rfl rfl hfree hleast

end MixedMarkup
