import MixedMarkup.Proofs.OpenElements
import MixedMarkup.Proofs.RegionLeaving
/-!
# Markup — end tags that are implied

A closing tag ends the elements open inside its own, if these may end
without closing tags. Two pieces of code say so. The indentation of a line
that begins with the tag walks over all such elements
(`Flavour.outsideClosing_of_implied`). The tag layer takes one of them off
at the name and one more at the end of the tag, so it finds the tag's
element behind one implied end at most: over two or more the tag is an
error and leaves elements open that the indentation takes for closed
(`implied_end_tags`, `implied_end_tags_stop_short`).
-/

namespace MixedMarkup

open Cursor Text

namespace Markup

variable {c : Cursor} {s : State} {inner rest : List Element} {target : Element}

/-- Elements whose ends the closing tag of `name` implies. -/
def Flavour.Implies (f : Flavour) (name : String) (inner : List Element) : Prop :=
  ∀ e ∈ inner, f.endsItself e.name = true ∧ e.name ≠ name

namespace Flavour

variable (f : Flavour)

/-- **The indentation walks over all implied ends** to the element of the
tag. -/
theorem outsideClosing_of_implied (h : f.Implies target.name inner) :
    f.outsideClosing target.name (inner ++ target :: rest) = rest := by
  induction inner with
  | nil => simp [outsideClosing]
  | cons e inner ih =>
    obtain ⟨hself, hname⟩ := h e (by simp)
    rw [List.cons_append, outsideClosing, if_neg hname, if_pos hself]
    exact ih fun e he => h e (by simp [he])

/-- **The tag layer goes over one of them.** -/
theorem afterImplied_of_implied (h : f.Implies target.name inner) :
    f.afterImplied target.name (inner ++ target :: rest) = inner.tail ++ target :: rest := by
  cases inner with
  | nil => simp [afterImplied]
  | cons e inner =>
    obtain ⟨hself, hname⟩ := h e (by simp)
    simp [afterImplied, hself, hname]

/-- So the name fits if there was one at most. -/
theorem fitsClosing_of_implied (h : f.Implies target.name inner) :
    f.fitsClosing target.name (inner ++ target :: rest) = decide (inner.length ≤ 1) := by
  rw [fitsClosing, f.afterImplied_of_implied h]
  rcases inner with _ | ⟨_, _ | ⟨e, inner⟩⟩
  · simp
  · simp
  · have hname := (h e (by simp)).2
    simp [hname]

end Flavour

/-- An ASCII letter or digit may stand in a word of a tag, and in the name of
a tag ahead. -/
theorem isWordChar_of_isAlphanum {x : Char} (h : x.isAlphanum = true) :
    isWordChar x = true ∧ x ≠ '/' ∧ isNameChar x = true := by
  have hascii : x.toNat < 128 := by
    unfold Char.isAlphanum Char.isAlpha Char.isUpper Char.isLower Char.isDigit at h
    simp only [Bool.or_eq_true, Bool.and_eq_true, decide_eq_true_eq, UInt32.le_iff_toNat_le,
      ge_iff_le] at h
    have hZ : 'Z'.val.toNat = 90 := rfl
    have hz : 'z'.val.toNat = 122 := rfl
    have hnine : '9'.val.toNat = 57 := rfl
    change x.val.toNat < 128
    omega
  have hall : ∀ n < 128, (Char.ofNat n).isAlphanum = true → isWordChar (Char.ofNat n) = true ∧
      Char.ofNat n ≠ '/' ∧ isNameChar (Char.ofNat n) = true := by
    decide
  have hx := hall x.toNat hascii
  rw [Char.ofNat_toNat] at hx
  exact hx h

/-- A line that begins with a closing tag is indented by the elements outside
the one that the tag would close. -/
theorem Setup.indent_closingTag (m : Setup) (hzone : s.zone = .text) (htag : s.tagName = none)
    (hlayout : s.context.head?.any (·.keepsLayout) = false) {name : List Char}
    (hname : ∀ x ∈ name, isNameChar x = true) :
    m.indent s ('<' :: '/' :: (name ++ ['>'])) =
      some (m.contentColumn (m.flavour.outsideClosing (m.flavour.elementName name) s.context)
        s) := by
  have hahead : tagAhead? ('<' :: '/' :: (name ++ ['>'])) = some (.closing name) := by
    rw [tagAhead?, takeWhile_eq_of_stop hname (by simp; decide)]
  have hdrop : dropBlanks ('<' :: '/' :: (name ++ ['>'])) = '<' :: '/' :: (name ++ ['>']) :=
    dropBlanks_of_head (by decide)
  simp only [indent, hzone, hlayout, Bool.false_eq_true, if_false, lineColumn, htag, hdrop,
    Flavour.contextAhead, hahead]

/-- **The tokens of a closing tag over implied ends**, and the elements that it
leaves open. The name goes over one of those ends at most, and the `>` closes
one element, whichever it is. -/
theorem Setup.yields_overImplied (m : Setup) (hs : s.Stands .text .base (inner ++ target :: rest))
    (hinner : m.flavour.Implies target.name inner) {name after : List Char} (hne : name ≠ [])
    (hname : ∀ x ∈ name, isWordChar x = true ∧ x ≠ '/')
    (hlower : m.flavour.elementName name = target.name)
    (hrest : c.rest = '<' :: '/' :: (name ++ '>' :: after)) :
    ∃ d s', m.tokenizer.Yields (·.opened = false) c s
        [(['<', '/'], some .tag), (name, some (if inner.length ≤ 1 then .tag else .error)),
          (['>'], some (if inner.length ≤ 1 then .tag else .error))] d s' ∧
      d.rest = after ∧
      s'.Stands .text .base
        (if inner.length ≤ 1 then rest else inner.drop 2 ++ target :: rest) := by
  have hbare : c.rest = '<' :: '/' :: ([] ++ (name ++ ([] ++ '>' :: after))) := hrest
  obtain ⟨d, s', hyields, hd, hs', -⟩ :=
    m.yields_closingTag hs hbare (by simp) (by simp) hne hname
  rw [hlower, m.flavour.fitsClosing_of_implied hinner] at hyields
  rw [hlower, m.flavour.afterImplied_of_implied hinner] at hs'
  have hleft : (inner.tail ++ target :: rest).tail =
      if inner.length ≤ 1 then rest else inner.drop 2 ++ target :: rest := by
    rcases inner with _ | ⟨_, _ | ⟨_, inner⟩⟩ <;> rfl
  refine ⟨d, s', ?_, hd, hleft ▸ hs'⟩
  simp only [closingTokens, blankTokens, closingStyle, if_true, decide_eq_true_eq,
    List.nil_append, List.singleton_append] at hyields
  exact hyields

/-- **A closing tag over implied ends.** Take a state that calls lead to, in
text and outside tags, in which elements that the tag's name implies the
ends of are open inside the tag's element. If there is one of them at most,
the tokens of the tag are a tag's and exactly the elements around the tag's
own are open after it. If there are more, its name and its end are errors,
and the first two of them are all that it closes. In both cases a line that
begins with the tag is indented by the elements around the tag's own, as
long as no `pre` is open. -/
theorem implied_end_tags (o : Options) (h : (html o).Reachable s) (hzone : s.zone = .text)
    (hstage : s.stage = .base) (hcontext : s.context = inner ++ target :: rest)
    (hinner : Flavour.html.Implies target.name inner)
    (hname : ∀ x ∈ target.name.toList, x.isAlphanum = true) {after : List Char}
    (hrest : c.rest = '<' :: '/' :: (target.name.toList ++ '>' :: after)) :
    (∃ d s', (html o).Yields (·.opened = false) c s
        [(['<', '/'], some .tag),
          (target.name.toList, some (if inner.length ≤ 1 then .tag else .error)),
          (['>'], some (if inner.length ≤ 1 then .tag else .error))] d s' ∧
        d.rest = after ∧ s'.zone = .text ∧ s'.stage = .base ∧
        s'.context = if inner.length ≤ 1 then rest else inner.drop 2 ++ target :: rest) ∧
      ((∀ e ∈ s.context, e.name ≠ "pre") →
        (html o).indent s ('<' :: '/' :: (target.name.toList ++ ['>'])) =
          some ((Setup.ofOptions .html o).contentColumn rest s)) := by
  have hs := wellFormed_of_reachable o h
  have htag : s.tagName = none := hs.tagName_eq_none (by simp [hstage, Stage.Named])
  have htarget : target.IsOpenable := hs.context.isOpenable target (by simp [hcontext])
  have hne : target.name.toList ≠ [] := fun hnil =>
    htarget.name.nonempty (String.toList_inj.mp hnil)
  have hlower : Flavour.html.elementName target.name.toList = target.name := by
    rw [Flavour.elementName, htarget.name.lower, String.ofList_toList]
  have hchars := fun x hx => isWordChar_of_isAlphanum (hname x hx)
  constructor
  · obtain ⟨d, s', hyields, hd, hs'⟩ := (Setup.ofOptions .html o).yields_overImplied
      ⟨hzone, hstage, htag, hcontext⟩ hinner hne (fun x hx => ⟨(hchars x hx).1, (hchars x hx).2.1⟩)
      hlower hrest
    exact ⟨d, s', hyields, hd, hs'.zone, hs'.stage, hs'.context⟩
  · intro hpre
    have hlayout : s.context.head?.any (·.keepsLayout) = false := by
      rw [Bool.eq_false_iff, Ne, hs.context.any_keepsLayout]
      rintro ⟨e, he, hname⟩
      exact hpre e he hname
    have hindent := (Setup.ofOptions .html o).indent_closingTag hzone htag hlayout
      fun x hx => (hchars x hx).2.2
    have hflavour : (Setup.ofOptions .html o).flavour = .html := rfl
    rw [hflavour, hlower, hcontext, Flavour.html.outsideClosing_of_implied hinner] at hindent
    exact hindent

/-- The html state that lines of text leave. -/
def stateAfter (lines : List String) : State :=
  ((html {}).readLines 0 (lines.map String.toList) ((html {}).start 0)).state

/-- A list is closed over its open item. -/
theorem implied_end_tags_over_item :
    (html {}).Reachable (stateAfter ["<ul><li>one"]) ∧
      ∃ d s', (html {}).Yields (·.opened = false) (.ofLine "</ul>".toList)
          (stateAfter ["<ul><li>one"])
          [("</".toList, some .tag), ("ul".toList, some .tag), (">".toList, some .tag)] d s' ∧
        d.rest = [] ∧ s'.context = [] := by
  have hreach : (html {}).Reachable (stateAfter ["<ul><li>one"]) := .readLines (.start 0) 0 _
  have hcontext : (stateAfter ["<ul><li>one"]).context =
      [⟨"li", 0, false, false⟩] ++ ⟨"ul", 0, true, false⟩ :: [] := by
    decide +kernel
  have hinner : Flavour.html.Implies "ul" [⟨"li", 0, false, false⟩] := by
    intro e he
    obtain rfl := List.mem_singleton.mp he
    exact ⟨by decide, by decide⟩
  obtain ⟨⟨d, s', hyields, hd, -, -, houter⟩, -⟩ :=
    implied_end_tags {} (c := .ofLine "</ul>".toList) hreach (by decide +kernel) (by decide +kernel)
      hcontext hinner (by decide) rfl
  exact ⟨hreach, d, s', hyields, hd, houter⟩

/-- **A table is not closed over its open row and cell.** Both may end
without closing tags, and the indentation takes the table for closed, but
the tag is an error and the table stays open. -/
theorem implied_end_tags_stop_short :
    (html {}).Reachable (stateAfter ["<table><tr><td>"]) ∧
      (stateAfter ["<table><tr><td>"]).zone = .text ∧
      (stateAfter ["<table><tr><td>"]).stage = .base ∧
      (stateAfter ["<table><tr><td>"]).context.map (·.name) = ["td", "tr", "table"] ∧
      (Flavour.html.endsItself "td" && Flavour.html.endsItself "tr") = true ∧
      ((html {}).readLine 1 "</table>".toList (stateAfter ["<table><tr><td>"])).spans.map
          Span.content = [("</", some .tag), ("table", some .error), (">", some .error)] ∧
      ((html {}).readLine 1 "</table>".toList (stateAfter ["<table><tr><td>"])).state.context.map
          (·.name) = ["table"] ∧
      (html {}).indent (stateAfter ["<table><tr><td>"]) "</table>".toList = some 0 := by
  refine ⟨.readLines (.start 0) 0 _, ?_, ?_, ?_, ?_, ?_, ?_, ?_⟩ <;> decide +kernel

end Markup

end MixedMarkup
