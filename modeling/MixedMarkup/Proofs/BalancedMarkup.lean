import MixedMarkup.Proofs.TagTexts
/-!
# Markup — balanced markup

A forest is markup in which every element with a body has its closing tag.
Read by the html tokenizer between tags, in whatever elements are open and on
whatever lines the text is laid out, a forest none of whose elements is ended
by the tag of another makes no error and leaves the open elements as they
were (`balanced_markup_clean`). The induction is over the forest
(`Forest.carries`), from what its pieces carry.
-/

namespace MixedMarkup

open Text

namespace Markup

/-- Markup with balanced tags: a first node, the nodes in it if it has a
body, and the nodes after it. -/
inductive Forest where
  | nil
  | plain (content : PlainText) (rest : Forest)
  | comment (content : CommentText) (rest : Forest)
  /-- An element without a body. -/
  | lone (tag : OpeningTag) (selfClosed : Bool)
      (bodiless : (selfClosed || Flavour.html.isVoid tag.name) = true) (rest : Forest)
  /-- An element with a body. -/
  | element (tag : OpeningTag) (body : Flavour.html.isVoid tag.name = false) (children : Forest)
      (closing : ClosingTag tag.name) (rest : Forest)

namespace Forest

/-- The markup as it is written. -/
def text : Forest → List Char
  | nil => []
  | plain content rest => content.text ++ rest.text
  | comment content rest => ("<!--".toList ++ (content.text ++ "-->".toList)) ++ rest.text
  | lone tag selfClosed _ rest => (tag.text ++ tagEnd selfClosed) ++ rest.text
  | element tag _ children closing rest =>
    (tag.text ++ (tagEnd false ++ (children.text ++ closing.text))) ++ rest.text

/-- No element is ended by the tag of a node in it; `parent` is the element
around all nodes, if there is one. -/
def Fits (parent : Option String) : Forest → Prop
  | nil => True
  | plain _ rest | comment _ rest => rest.Fits parent
  | lone tag _ _ rest =>
    (∀ p ∈ parent, Flavour.html.grabs p tag.name = false) ∧ rest.Fits parent
  | element tag _ children _ rest =>
    (∀ p ∈ parent, Flavour.html.grabs p tag.name = false) ∧ children.Fits (some tag.name) ∧
      rest.Fits parent

end Forest

variable {context : List Element} {name : String}

/-- The tag of an element that is not ended by it leaves all elements open. -/
theorem Flavour.afterGrabs_of_not (f : Flavour)
    (h : ∀ p ∈ context.head?.map (·.name), f.grabs p name = false) :
    f.afterGrabs name context = context := by
  cases context with
  | nil => rfl
  | cons parent outer => simp [afterGrabs, h parent.name rfl]

namespace Setup

variable (m : Setup) (hflavour : m.flavour = .html)

/-- **A node with plain text before it** and markup after it. The text stops
at the node, which begins with a `<`. -/
theorem carries_node {plain node rest : List Char} (hplain : ∀ x ∈ plain, isPlain x = true)
    (hnode : m.tokenizer.Carries NoError (State.Inside .text .base context) node (fun _ => True)
      (State.Inside .text .base context)) (hhead : ∃ text, node = '<' :: text)
    (hrest : m.tokenizer.Carries NoError (State.Inside .text .base context) rest
      (fun after => ∀ x ∈ after.head?, isPlain x = false) (State.Inside .text .base context)) :
    m.tokenizer.Carries NoError (State.Inside .text .base context) (plain ++ (node ++ rest))
      (fun after => ∀ x ∈ after.head?, isPlain x = false) (State.Inside .text .base context) := by
  refine (m.carries_plain ⟨plain, hplain⟩).seq (hnode.seq hrest fun _ _ => trivial) ?_
  obtain ⟨text, rfl⟩ := hhead
  intro after _ x hx
  obtain rfl : '<' = x := by simpa using hx
  decide

include hflavour

/-- **An element without a body** changes nothing. -/
theorem carries_lone (tag : OpeningTag) {selfClosed : Bool}
    (hbodiless : (selfClosed || Flavour.html.isVoid tag.name) = true)
    (hgrabs : ∀ p ∈ context.head?.map (·.name), Flavour.html.grabs p tag.name = false) :
    m.tokenizer.Carries NoError (State.Inside .text .base context) (tag.text ++ tagEnd selfClosed)
      (fun _ => True) (State.Inside .text .base context) := by
  refine (m.carries_openingTag hflavour tag).seq ((m.carries_tagEnd hflavour selfClosed).mono
    (fun _ hs => hs) (fun s hs => ?_) fun _ h => h) fun after _ => meetsTagEnd_append _ after
  obtain ⟨_, _, hs⟩ := hs
  rwa [if_pos hbodiless, Flavour.html.afterGrabs_of_not hgrabs] at hs

/-- **The opening tag of an element** with a body opens it. -/
theorem carries_opening (tag : OpeningTag) (hbody : Flavour.html.isVoid tag.name = false)
    (hgrabs : ∀ p ∈ context.head?.map (·.name), Flavour.html.grabs p tag.name = false) :
    m.tokenizer.Carries NoError (State.Inside .text .base context) (tag.text ++ tagEnd false)
      (fun _ => True)
      (fun s => ∃ top : Element, top.name = tag.name ∧ s.Inside .text .base (top :: context)) := by
  refine (m.carries_openingTag hflavour tag).seq ((m.carries_tagEnd hflavour false).mono
    (fun _ hs => hs) (fun s hs => ?_) fun _ h => h) fun after _ => meetsTagEnd_append _ after
  obtain ⟨_, _, hs⟩ := hs
  rw [hbody, Bool.or_false, if_neg Bool.false_ne_true, Flavour.opened,
    Flavour.html.afterGrabs_of_not hgrabs] at hs
  exact ⟨_, rfl, hs⟩

end Setup

/-- **What a forest carries.** Plain text may stand before it, since the text
of neighbouring nodes is read together. -/
theorem Forest.carries (m : Setup) (hflavour : m.flavour = .html) (forest : Forest)
    (hfits : forest.Fits (context.head?.map (·.name))) (plain : List Char)
    (hplain : ∀ x ∈ plain, isPlain x = true) :
    m.tokenizer.Carries NoError (State.Inside .text .base context) (plain ++ forest.text)
      (fun after => ∀ x ∈ after.head?, isPlain x = false) (State.Inside .text .base context) := by
  induction forest generalizing context plain with
  | nil =>
    rw [text, List.append_nil]
    exact m.carries_plain ⟨plain, hplain⟩
  | plain content rest ih =>
    rw [text, ← List.append_assoc]
    refine ih hfits _ fun x hx => ?_
    rcases List.mem_append.mp hx with hx | hx
    · exact hplain x hx
    · exact content.plain x hx
  | comment content rest ih =>
    exact m.carries_node hplain (m.carries_comment content) ⟨_, rfl⟩
      (ih hfits [] (by simp))
  | lone tag selfClosed hbodiless rest ih =>
    exact m.carries_node hplain (m.carries_lone hflavour tag hbodiless hfits.1) ⟨_, rfl⟩
      (ih hfits.2 [] (by simp))
  | element tag hbody children closing rest ihchildren ih =>
    obtain ⟨hgrabs, hchildren, hrest⟩ := hfits
    -- within the element, whichever it is, its children and then its closing tag
    have hinside : m.tokenizer.Carries NoError
        (fun s => ∃ top : Element, top.name = tag.name ∧ s.Inside .text .base (top :: context))
        (children.text ++ closing.text) (fun _ => True) (State.Inside .text .base context) := by
      rintro pl s after hahead - ⟨top, htop, hs⟩
      have hfits : children.Fits ((top :: context).head?.map (·.name)) := by
        simpa [htop] using hchildren
      have hclosing : Flavour.html.elementName closing.word.text = top.name :=
        closing.fits.trans htop.symm
      refine (ihchildren hfits [] (by simp)).seq
        (m.carries_closingTag hflavour ⟨closing.word, closing.gap, hclosing⟩)
        (fun after _ x hx => ?_) hahead trivial hs
      obtain rfl : '<' = x := by simpa [ClosingTag.text] using hx
      decide
    have helement := (m.carries_opening hflavour tag hbody hgrabs).seq hinside fun _ _ => trivial
    rw [List.append_assoc] at helement
    exact m.carries_node hplain helement ⟨_, rfl⟩ (ih hrest [] (by simp))

/-- **Balanced markup is clean.** Take any state of the html tokenizer in text
and outside tags, and a place in a document from which what is ahead, line
feeds included, is a forest in which no element is ended by the tag of a node
in it, the innermost open element by that of a root included. Then the
reading goes to the end of the document, no token is an error, and the state
after it is in text and outside tags, with the same elements open. -/
theorem balanced_markup_clean (o : Options) {s : State} (hzone : s.zone = .text)
    (hstage : s.stage = .base) (forest : Forest) (hfits : forest.Fits s.openElement) {pl : Place}
    (hahead : pl.ahead = forest.text) (index : Nat) :
    ((html o).readOn index pl s).failure = none ∧
      (∀ sp ∈ ((html o).readOn index pl s).spans, sp.style ≠ some .error) ∧
      ((html o).readOn index pl s).state.zone = .text ∧
      ((html o).readOn index pl s).state.stage = .base ∧
      ((html o).readOn index pl s).state.context = s.context := by
  have hcarries := forest.carries (Setup.ofOptions .html o) rfl hfits [] (by simp)
  have hwhole : pl.ahead = [] ++ forest.text ++ [] := by simpa using hahead
  obtain ⟨pl', s', hpassage, hend, hs'⟩ := hcarries hwhole (by simp) ⟨hzone, hstage, rfl⟩
  obtain ⟨hfailure, hspans, rfl⟩ := hpassage.readOn_of_end hend index
  exact ⟨hfailure, hspans, hs'.zone, hs'.stage, hs'.context⟩

/-- A list item with a value, a comment and a closing tag over several lines. -/
def tornItem : Forest :=
  .element
    { word := ⟨⟨"LI".toList, by decide, by decide⟩, by simp⟩
      attributes :=
        [{ gap := ⟨[' '], by decide⟩
           separated := by decide
           name := ⟨"class".toList, by decide, by decide⟩
           value := some (⟨[' '], by decide⟩, ⟨[' '], by decide⟩,
            .quoted '\x22' "a\n b/>".toList (by decide) (by decide)) },
         { gap := ⟨['\n'], by decide⟩
           separated := by decide
           name := ⟨"hidden".toList, by decide, by decide⟩
           value := none }]
      gap := ⟨[], by decide⟩ }
    (by decide)
    (.lone ⟨⟨⟨"br".toList, by decide, by decide⟩, by simp⟩, [], ⟨[], by decide⟩⟩ true
      rfl (.comment ⟨" </li>\n".toList, by decide⟩ (.plain ⟨" c".toList, by decide⟩ .nil)))
    ⟨⟨"li".toList, by decide, by decide⟩, ⟨['\n'], by decide⟩, by decide⟩
    (.plain ⟨" d".toList, by decide⟩ .nil)

/-- It is clean in a list. -/
theorem balanced_markup_clean_in_list :
    let s := ((html {}).readLine 0 "<ul>".toList ((html {}).start 0)).state
    let pl : Place := ⟨.ofLine "<LI class = \x22a".toList,
      [" b/>\x22".toList, "hidden><br/><!-- </li>".toList, "--> c</li".toList, "> d".toList]⟩
    (s.zone = .text ∧ s.stage = .base ∧ tornItem.Fits s.openElement ∧ pl.ahead = tornItem.text) ∧
      ((html {}).readOn 1 pl s).failure = none ∧
      (∀ sp ∈ ((html {}).readOn 1 pl s).spans, sp.style ≠ some .error) ∧
      ((html {}).readOn 1 pl s).state.context = [⟨"ul", 0, true, false⟩] := by
  intro s pl
  have hzone : s.zone = .text := by decide +kernel
  have hstage : s.stage = .base := by decide +kernel
  have hcontext : s.context = [⟨"ul", 0, true, false⟩] := by decide +kernel
  have hfits : tornItem.Fits s.openElement := by
    rw [State.openElement, hcontext]
    simp only [tornItem, Forest.Fits]
    decide +kernel
  have hahead : pl.ahead = tornItem.text := by decide +kernel
  obtain ⟨hfailure, hclean, -, -, hleft⟩ :=
    balanced_markup_clean {} hzone hstage tornItem hfits hahead 1
  exact ⟨⟨hzone, hstage, hfits, hahead⟩, hfailure, hclean, hleft.trans hcontext⟩

end Markup

end MixedMarkup
