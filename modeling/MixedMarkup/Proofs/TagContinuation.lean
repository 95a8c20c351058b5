import MixedMarkup.Proofs.LetterCase
import MixedMarkup.Proofs.OpeningAfterErrors
import MixedMarkup.Proofs.TokensByLine
/-!
# Markup — the later lines of a tag

The lines after the first one of an opening tag are aligned behind its name,
where the setup says so. The column is that of the `<` and the size of the
name, and the first is counted in characters, with tabs, while the second is
counted in bytes. So the lines stand under the first attribute exactly if
every character of the name is a single byte, and else too far to the right
by the bytes that the name has more than characters (`tag_continuation`).
-/

namespace MixedMarkup

open Cursor Text

/-! ## Columns and sizes -/

namespace Text

variable {tabSize : Nat} {text : List Char}

/-- Without tabs a text is as wide as it has characters. -/
theorem columnWidth_append_of_no_tab (before : List Char) (htext : '\t' ∉ text) :
    columnWidth tabSize (before ++ text) = columnWidth tabSize before + text.length := by
  induction text generalizing before with
  | nil => simp
  | cons x text ih =>
    rw [List.mem_cons, not_or] at htext
    have hx : (x == '\t') = false := beq_eq_false_iff_ne.mpr (Ne.symm htext.1)
    have hfirst : columnWidth tabSize (before ++ [x]) = columnWidth tabSize before + 1 := by
      simp [columnWidth, columnAfter, hx]
    rw [List.append_cons, ih _ htext.2, hfirst, List.length_cons]
    omega

/-- No text has more characters than bytes. -/
theorem length_le_byteSize (text : List Char) : text.length ≤ byteSize text := by
  induction text with
  | nil => exact Nat.le_refl 0
  | cons x text ih =>
    have hx := x.utf8Size_pos
    rw [List.length_cons, byteSize_cons]
    omega

/-- And it has as many where each of them is a single byte. -/
theorem byteSize_eq_length_iff (text : List Char) :
    byteSize text = text.length ↔ ∀ x ∈ text, x.utf8Size = 1 := by
  induction text with
  | nil => simp
  | cons x text ih =>
    have hx := x.utf8Size_pos
    have hle := length_le_byteSize text
    rw [List.forall_mem_cons, ← ih, byteSize_cons, List.length_cons]
    omega

end Text

/-- Where a run from the start of a line has come to, the column is the width
of what it read. -/
theorem Tokenizer.Run.column_beginToken {σ : Type} {t : Tokenizer σ} {s s' : σ}
    {calls : List (Call σ)} {d : Cursor} {text after : List Char}
    (h : t.Run (.ofLine (text ++ after)) s calls d s') (hd : d.rest = after) :
    d.beginToken.column = columnWidth defaultTabSize text := by
  have hline : d.line = text ++ after := h.line
  rw [Cursor.line, hd, ← List.append_assoc] at hline
  have hbefore : d.before ++ d.token = text := List.append_cancel_right hline
  rw [Cursor.column, tabSize_beginToken, h.tabSize]
  exact congrArg (columnWidth defaultTabSize) hbefore

namespace Markup

theorem Flavour.byteSize_elementName (f : Flavour) (spelling : List Char) :
    byteSize (f.elementName spelling).toList = byteSize spelling := by
  cases f <;> simp [elementName]

/-! ## Up to the first attribute -/

variable {c : Cursor} {s : State} {stage : Stage} {name : String} {column : Nat}
variable {text after : List Char}

/-- The state is in an opening tag with the name, which began at the column
and outside elements. -/
structure State.InOutermostTag (stage : Stage) (name : String) (column : Nat) (s : State) : Prop
    extends s.InsideTag .tag stage name [] where
  tagColumn : s.tagColumn = column

theorem lasts_inOutermostTag : Lasts (State.InOutermostTag stage name column) :=
  fun c s h => ⟨lasts_insideTag c s h.toInsideTag, h.tagColumn⟩

namespace Setup

variable (m : Setup)

/-- The delimiter of a tag with a name takes note of its column. -/
theorem yields_openDelimiter (hs : s.Stands .text .base []) (hrest : c.rest = '<' :: after)
    (hafter : ∀ x ∈ after.head?, x ≠ '!' ∧ x ≠ '?' ∧ x ≠ '/') :
    ∃ d s', m.tokenizer.Yields (fun _ => True) c s [(['<'], some .tag)] d s' ∧ d.rest = after ∧
      s'.Stands .tag .tagName [] ∧ s'.tagColumn = c.beginToken.column := by
  obtain ⟨hblanks, htook, hpiece⟩ :=
    readPiece_of_openTag (c := c.beginToken) (hs.enter c.beginToken).zone hrest hafter
  obtain ⟨hyields, hd⟩ := m.yields_of_lexeme (by simp) hblanks htook hpiece hrest
  have hstep : m.flavour.step .openTag (c.beginToken.read 1)
        { enter c.beginToken s with zone := .tag } =
      ({ enter c.beginToken s with
          zone := .tag, stage := .tagName, tagColumn := c.beginToken.column }, none) := by
    simp only [Flavour.step, (hs.enter c.beginToken).stage]
    rfl
  rw [hstep] at hyields
  exact ⟨_, _, hyields, hd, ⟨rfl, rfl, hs.tagName, hs.context⟩, rfl⟩

/-- Blanks after the name leave what was read of the tag as it is. -/
theorem yields_gap {P : State → Prop} (hP : Lasts P) (hs : P s) (gap : Gap) (hne : gap.text ≠ [])
    (hrest : c.rest = gap.text ++ after) (hafter : ∀ x ∈ after.head?, isBlank x = false) :
    ∃ d s', m.tokenizer.Yields (fun _ => True) c s [(gap.text, none)] d s' ∧ d.rest = after ∧
      P s' := by
  obtain ⟨x, more, hx⟩ := List.exists_cons_of_ne_nil hne
  have htakes := m.callTakes_blanks (c := c.beginToken) (p := (· = none)) rfl hP hs
    ⟨x, by simp [hrest, hx], gap.blanks x (by simp [hx])⟩
  rw [rest_beginToken, hrest, takeWhile_eq_of_stop gap.blanks hafter] at htakes
  exact htakes.yields hne (fun _ _ => trivial) hrest

/-- And so does the name of an attribute. -/
theorem yields_attributeName (hs : s.InOutermostTag .attributes name column) (word : Word)
    (hrest : c.rest = word.text ++ after) (hafter : EndsWord after) :
    ∃ d s', m.tokenizer.Yields (fun _ => True) c s [(word.text, some .attr)] d s' ∧
      d.rest = after ∧ s'.InOutermostTag .afterAttribute name column := by
  have hs' := lasts_inOutermostTag c.beginToken s hs
  obtain ⟨d, hblanks, htook, -, hpiece⟩ := readPiece_of_word (c := c.beginToken)
    hs'.zone rfl hrest word.nonempty word.chars hafter
  obtain ⟨hyields, hd⟩ := m.yields_of_lexeme word.nonempty hblanks htook hpiece hrest
  have hstep : m.flavour.step .word d (enter c.beginToken s) =
      ({ enter c.beginToken s with stage := .afterAttribute }, some .attr) := by
    simp only [Flavour.step, hs'.stage, Flavour.stepAttribute]
  rw [hstep] at hyields
  exact ⟨d, _, hyields, hd, ⟨⟨⟨hs'.zone, rfl, hs'.context⟩, hs'.tagName⟩, hs'.tagColumn⟩⟩

/-- **The first line of a tag**, up to its first attribute. -/
theorem readLine_tagStart (index baseIndent : Nat) (margin gap : Gap) (word : TagWord)
    (first : Word) (hgap : gap.text ≠ []) :
    let r := m.tokenizer.readLine index
      (margin.text ++ '<' :: (word.text ++ (gap.text ++ first.text))) (.initial baseIndent)
    r.failure = none ∧ r.state.InOutermostTag .afterAttribute (m.flavour.elementName word.text)
      (columnWidth defaultTabSize margin.text) := by
  obtain ⟨c₁, s₁, hmargin, hc₁, hs₁⟩ := m.yields_blanks
    (c := .ofLine (margin.text ++ '<' :: (word.text ++ (gap.text ++ first.text))))
    (s := .initial baseIndent) ⟨rfl, rfl, rfl, rfl⟩ rfl margin.blanks (by simp; decide)
  have hcolumn : c₁.beginToken.column = columnWidth defaultTabSize margin.text := by
    obtain ⟨calls, hrun, -⟩ := hmargin
    exact hrun.column_beginToken hc₁
  obtain ⟨c₂, s₂, hdelimiter, hc₂, hs₂, hcolumn₂⟩ := m.yields_openDelimiter hs₁ hc₁
    (head?_of_tagText word.nonempty word.chars word.plain)
  obtain ⟨c₃, s₃, hword, hc₃, hs₃, hcolumn₃⟩ :=
    m.yields_tagWord hs₂ word.nonempty word.chars hc₂ (gap.endsWord_of_ne_nil hgap _)
  obtain ⟨c₄, s₄, hblanks, hc₄, hs₄⟩ :=
    m.yields_gap lasts_inOutermostTag ⟨hs₃, (hcolumn₃.trans hcolumn₂).trans hcolumn⟩ gap hgap hc₃
      (by simpa using first.head?_append [])
  rw [← List.append_nil first.text] at hc₄
  obtain ⟨c₅, s₅, hattribute, hc₅, hs₅⟩ :=
    m.yields_attributeName hs₄ first hc₄ (by simp [EndsWord])
  obtain ⟨calls, hrun, -⟩ := (hmargin.mono fun _ _ => trivial).trans
    (hdelimiter.trans (hword.trans (hblanks.trans hattribute)))
  have hread := hrun.readFrom_eq index
  rw [Tokenizer.readFrom_of_atEnd _ hc₅] at hread
  simp only [Tokenizer.readLine, hread, true_and]
  exact hs₅

/-- The column of a later line, whatever it begins with. -/
theorem indent_of_inOutermostTag (hpast : m.tagLinePastName = true)
    (hs : s.InOutermostTag stage name column) (text : List Char) :
    m.indent s text = some (column + byteSize name.toList + 2) := by
  simp [indent, hs.zone, hs.context, lineColumn, hs.tagName, tagLineColumn, hpast, hs.tagColumn]

end Setup

/-- **Where a tag goes on.** Take a setup that aligns the lines of a tag behind
its name, and a line with an opening tag up to its first attribute, which is
read from a start state: blanks of any kind, the `<`, a name, a blank other
than a tab, and the attribute. It is read without a failure, and every line
after it is indented to the column of the attribute and as many columns more
as the name has bytes above the number of its characters. That is the
attribute's own column if and only if every character of the name is a single
byte. -/
theorem tag_continuation (m : Setup) (hpast : m.tagLinePastName = true) (index baseIndent : Nat)
    (margin : Gap) (word : TagWord) {blank : Char} (hblank : isBlank blank = true)
    (htab : blank ≠ '\t') (first : Word) :
    let r := m.tokenizer.readLine index
      (margin.text ++ '<' :: (word.text ++ blank :: first.text)) (m.tokenizer.start baseIndent)
    let column := columnWidth defaultTabSize (margin.text ++ '<' :: (word.text ++ [blank]))
    r.failure = none ∧
      (∀ text, m.tokenizer.indent r.state text =
        some (column + (byteSize word.text - word.text.length))) ∧
      ((∀ text, m.tokenizer.indent r.state text = some column) ↔
        ∀ x ∈ word.text, x.utf8Size = 1) := by
  intro r column
  obtain ⟨hfailure, hs⟩ := m.readLine_tagStart index baseIndent margin
    ⟨[blank], by simpa using hblank⟩ word first (by simp)
  have hwide := length_le_byteSize word.text
  have hname : '\t' ∉ '<' :: (word.text ++ [blank]) := by
    have hword : '\t' ∉ word.text := fun h => absurd (word.chars _ h).1 (by decide)
    simp [hword, htab.symm]
  have hcolumn : column = columnWidth defaultTabSize margin.text + (word.text.length + 2) := by
    simp only [column, columnWidth_append_of_no_tab _ hname, List.length_cons, List.length_append,
      List.length_nil]
  have hindent : ∀ text, m.tokenizer.indent r.state text =
      some (column + (byteSize word.text - word.text.length)) := by
    intro text
    have hlater := m.indent_of_inOutermostTag hpast hs text
    rw [m.flavour.byteSize_elementName] at hlater
    refine hlater.trans (congrArg some ?_)
    omega
  refine ⟨hfailure, hindent, ?_⟩
  rw [← byteSize_eq_length_iff]
  constructor
  · intro hall
    have hsame := Option.some.inj ((hindent []).symm.trans (hall []))
    omega
  · intro hbytes text
    rw [hindent text, hbytes, Nat.sub_self, Nat.add_zero]

/-- Behind a tab, an ideographic space and a name in ASCII, whatever the line
begins with. -/
theorem tag_continuation_behind_margin :
    (Setup.ofOptions .html {}).tagLinePastName = true ∧ isBlank ' ' = true ∧ ' ' ≠ '\t' ∧
      ∀ text, (html {}).indent
        ((html {}).readLine 0 "\t\u3000<div id".toList ((html {}).start 0)).state text =
          some 10 := by
  refine ⟨rfl, by decide, by decide, ?_⟩
  have hline := tag_continuation (.ofOptions .html {}) rfl 0 0
    ⟨"\t\u3000".toList, by decide⟩ ⟨⟨"div".toList, by decide, by decide⟩, by simp⟩
    (by decide : isBlank ' ' = true) (by decide) ⟨"id".toList, by decide, by decide⟩
  exact hline.2.2.mpr (by decide)

/-- **A name of two bytes and one character** moves the next line one column
past the attribute. -/
theorem tag_continuation_past_attribute :
    columnWidth defaultTabSize "<é ".toList = 3 ∧
      (html {}).indent ((html {}).readLine 0 "<é x".toList ((html {}).start 0)).state [] =
        some 4 := by
  constructor <;> decide +kernel

end Markup

end MixedMarkup
