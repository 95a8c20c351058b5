import MixedMarkup.Mixed.ClosingTag
import MixedMarkup.Mixed.ScriptType
import MixedMarkup.Proofs.LoweredReading
/-!
# Mixed documents in lower case — types and closing tags

What a composite looks for in a text by itself it looks for in any case: the
type of a script on the line of its tag (`kindOnLine_map_toLower`), by
patterns that ignore case (`isMatch_map_toLower`), and the closing tag of a
region (`closesAt_map_toLower`), before which tokens are cut short
(`trim_lower`).
-/

namespace MixedMarkup

open Cursor Text

/-! ## Patterns -/

namespace Pattern

/-- A set of characters, read without case, does not tell capitals from small
letters. -/
theorem CharSet.has_toLower (set : CharSet) : CaseBlind (set.has true) := by
  intro c
  induction set with
  | none => rfl
  | char d => simp only [has, if_true, sameFold, foldCase_toLower]
  | range first last => simp only [has, if_true, caseVariants, foldCase_toLower]
  | word => exact isWord_toLower c
  | digit => exact isDecimal_toLower c
  | blank => exact isBlank_toLower c
  | compl s ih => simp only [has, ih]
  | union a b iha ihb => simp only [has, iha, ihb]

/-- A pattern all of whose characters are read without case. -/
def Expr.IgnoresCase : Expr → Bool
  | empty | startOfText | endOfText | wordBoundary _ => true
  | one ignoreCase _ => ignoreCase
  | seq a b | alt a b => a.IgnoresCase && b.IgnoresCase
  | rep _ _ _ body | group _ body => body.IgnoresCase

/-- The same place in the text in lower case. -/
def Place.lower (p : Place) : Place :=
  { p with previous := p.previous.map Char.toLower, rest := p.rest.map Char.toLower }

/-- What has to follow is there in lower case where it is there. -/
def Rest.Lowers (k k' : Rest) : Prop := ∀ q : Place, (k' q.lower).isSome = (k q).isSome

/-- A body matches in lower case where it matches. -/
def Lowers (body : Place → Rest → Option Place) : Prop :=
  ∀ (p : Place) (k k' : Rest), Rest.Lowers k k' → (body p.lower k').isSome = (body p k).isSome

variable {body : Place → Rest → Option Place} {k k' : Rest}

theorem isSome_orElse {α : Type} (o o' : Option α) :
    (o <|> o').isSome = (o.isSome || o'.isSome) := by
  cases o <;> simp

theorem isSome_prefer {greedy : Bool} {more stop more' stop' : Unit → Option Place}
    (hmore : (more' ()).isSome = (more ()).isSome) (hstop : (stop' ()).isSome = (stop ()).isSome) :
    (prefer greedy more' stop').isSome = (prefer greedy more stop).isSome := by
  cases greedy <;> simp only [prefer, isSome_orElse, hmore, hstop, if_true, Bool.false_eq_true,
    if_false]

theorem lowers_exactly (hbody : Lowers body) (n : Nat) : Lowers (exactly body n) := by
  induction n with
  | zero => exact fun p k k' hk => hk p
  | succ n ih => exact fun p k k' hk => hbody p _ _ fun q => ih q k k' hk

theorem lowers_atMost (hbody : Lowers body) (greedy : Bool) (n : Nat) :
    Lowers (atMost body greedy n) := by
  induction n with
  | zero => exact fun p k k' hk => hk p
  | succ n ih =>
    intro p k k' hk
    exact isSome_prefer (hbody p _ _ fun q => ih q k k' hk) (hk p)

theorem lowers_atLeastOne (hbody : Lowers body) (greedy : Bool) (bound : Nat) :
    Lowers (atLeastOne body greedy bound) := by
  induction bound with
  | zero => exact fun _ _ _ _ => rfl
  | succ bound ih =>
    intro p k k' hk
    refine hbody p _ _ fun q => ?_
    simp only [Place.lower, List.length_map]
    split
    · exact isSome_prefer (ih q k k' hk) (hk q)
    · exact hk q

theorem lowers_unbounded (hbody : Lowers body) (greedy : Bool) (least : Nat) :
    Lowers (unbounded body greedy least) := by
  intro p k k' hk
  cases least with
  | zero =>
    simp only [unbounded, Place.lower, List.length_map]
    exact isSome_prefer (lowers_atLeastOne hbody greedy _ p k k' hk) (hk p)
  | succ n =>
    refine lowers_exactly hbody n p _ _ fun q => ?_
    simp only [Place.lower, List.length_map]
    exact lowers_atLeastOne hbody greedy _ q k k' hk

theorem onBoundary_lower (p : Place) : p.lower.onBoundary = p.onBoundary := by
  have hword : ∀ c : Char, isWord c.toLower = isWord c := isWord_toLower
  simp only [Place.onBoundary, Place.lower, List.head?_map, Option.any_map, hword]

/-- **A pattern that ignores case** matches in lower case where it matches. -/
theorem Expr.lowers_run (e : Expr) (h : e.IgnoresCase = true) : Lowers e.run := by
  induction e with
  | empty => exact fun p k k' hk => hk p
  | one ignoreCase set =>
    obtain rfl : ignoreCase = true := h
    intro p k k' hk
    simp only [run, Place.lower]
    cases p.rest with
    | nil => rfl
    | cons c rest =>
      simp only [List.map_cons, set.has_toLower c]
      split
      · exact hk (p.step c rest)
      · rfl
  | startOfText =>
    intro p k k' hk
    have hprevious : p.lower.previous.isNone = p.previous.isNone := by simp [Place.lower]
    simp only [run, hprevious]
    split
    · exact hk p
    · rfl
  | endOfText =>
    intro p k k' hk
    have hrest : p.lower.rest.isEmpty = p.rest.isEmpty := List.isEmpty_map
    simp only [run, hrest]
    split
    · exact hk p
    · rfl
  | wordBoundary negated =>
    intro p k k' hk
    simp only [run, onBoundary_lower]
    split
    · exact hk p
    · rfl
  | seq a b iha ihb =>
    obtain ⟨ha, hb⟩ := (Bool.and_eq_true ..).mp h
    exact fun p k k' hk => iha ha p _ _ fun q => ihb hb q k k' hk
  | alt a b iha ihb =>
    obtain ⟨ha, hb⟩ := (Bool.and_eq_true ..).mp h
    intro p k k' hk
    simp only [run, isSome_orElse, iha ha p k k' hk, ihb hb p k k' hk]
  | rep greedy least most body ih =>
    cases most with
    | none => exact lowers_unbounded (ih h) greedy least
    | some most =>
      exact fun p k k' hk => lowers_exactly (ih h) least p _ _ fun q =>
        lowers_atMost (ih h) greedy (most - least) q k k' hk
  | group number body ih =>
    exact fun p k k' hk => ih h p _ _ fun q => hk (q.keep number p.offset)

theorem Expr.matchFrom_map_toLower (e : Expr) (h : e.IgnoresCase = true) (text : List Char)
    (p : Place) : e.matchFrom (text.map Char.toLower) p.lower = e.matchFrom text p := by
  have hat : ∀ p : Place, (e.matchAt p.lower).isSome = (e.matchAt p).isSome := fun p =>
    e.lowers_run h p some some fun _ => rfl
  induction text generalizing p with
  | nil => exact hat p
  | cons c text ih =>
    rw [List.map_cons, matchFrom, matchFrom, hat]
    exact congrArg _ (ih (p.step c text))

/-- So a text has a match if its lower case form has one. -/
theorem isMatch_map_toLower (p : Pattern) (h : p.expr.IgnoresCase = true) (text : List Char) :
    p.isMatch (text.map Char.toLower) = p.isMatch text :=
  p.expr.matchFrom_map_toLower h text (.ofText text)

end Pattern

namespace Mixed

/-! ## Script types -/

theorem isQuote_toLower : CaseBlind isQuote := apply_toLower (by decide)

theorem beforeLastQuote?_map_toLower (text : List Char) :
    beforeLastQuote? (text.map Char.toLower) =
      (beforeLastQuote? text).map (·.map Char.toLower) := by
  induction text with
  | nil => rfl
  | cons c text ih =>
    rw [List.map_cons, beforeLastQuote?, beforeLastQuote?, ih, isQuote_toLower c]
    cases beforeLastQuote? text with
    | some value => rfl
    | none =>
      simp only [Option.map_none]
      split <;> rfl

theorem valueAfterQuote?_map_toLower (text : List Char) :
    valueAfterQuote? (text.map Char.toLower) =
      (valueAfterQuote? text).map (·.map Char.toLower) := by
  have hfeed : CaseBlind fun c => c != '\n' := (beq_toLower (by decide)).not
  rw [valueAfterQuote?, valueAfterQuote?, takeWhile_map_toLower hfeed,
    beforeLastQuote?_map_toLower]
  cases beforeLastQuote? (text.takeWhile (· != '\n')) with
  | none => rfl
  | some value => cases value <;> rfl

theorem typeAt?_map_toLower (text : List Char) :
    typeAt? (text.map Char.toLower) = (typeAt? text).map (·.map Char.toLower) := by
  simp only [typeAt?, dropAnyCase?_map_toLower]
  cases dropAnyCase? "type".toList text with
  | none => rfl
  | some rest =>
    simp only [Option.map_some, Option.bind_eq_bind, Option.bind_some, dropBlanks_map_toLower]
    cases dropBlanks rest with
    | nil => rfl
    | cons c rest =>
      by_cases hc : c = '='
      · subst hc
        have hsmall : '='.toLower = '=' := by decide
        simp only [List.map_cons, hsmall, dropBlanks_map_toLower]
        cases dropBlanks rest with
        | nil => rfl
        | cons q rest =>
          simp only [List.map_cons, isQuote_toLower q, valueAfterQuote?_map_toLower]
          split <;> rfl
      · have hc' : ¬ c.toLower = '=' := fun h => hc ((toLower_eq_iff (by decide)).mp h)
        simp only [List.map_cons]
        split
        · rename_i heq
          exact absurd (List.cons.inj heq).1 hc'
        · split
          · rename_i heq
            exact absurd (List.cons.inj heq).1 hc
          · rfl

theorem typeOnLine?_map_toLower (line : List Char) :
    typeOnLine? (line.map Char.toLower) = (typeOnLine? line).map (·.map Char.toLower) := by
  induction line with
  | nil => rfl
  | cons c line ih =>
    have hat := typeAt?_map_toLower (c :: line)
    rw [List.map_cons] at hat
    rw [List.map_cons, typeOnLine?, typeOnLine?, hat, ih]
    cases typeAt? (c :: line) <;> rfl

namespace TypePatterns

/-- Patterns that ignore case. -/
structure IgnoreCase (types : TypePatterns) : Prop where
  script : types.script.expr.IgnoresCase = true
  templates : ∀ p ∈ types.templates, p.expr.IgnoresCase = true

/-- **The patterns of the default options** ignore case. -/
theorem ignoreCase_standard : standard.IgnoreCase where
  script := by decide +kernel
  templates := by decide +kernel

/-- The kind of a script is found in any case. -/
theorem kindOnLine_map_toLower {types : TypePatterns} (h : types.IgnoreCase) (line : List Char) :
    types.kindOnLine (line.map Char.toLower) = types.kindOnLine line := by
  rw [kindOnLine, kindOnLine, typeOnLine?_map_toLower]
  cases typeOnLine? line with
  | none => rfl
  | some declared =>
    have htemplates : types.templates.any (·.isMatch (declared.map Char.toLower)) =
        types.templates.any (·.isMatch declared) := by
      rw [Bool.eq_iff_iff, List.any_eq_true, List.any_eq_true]
      constructor
      · rintro ⟨p, hp, hmatch⟩
        exact ⟨p, hp, (p.isMatch_map_toLower (h.templates p hp) declared) ▸ hmatch⟩
      · rintro ⟨p, hp, hmatch⟩
        exact ⟨p, hp, (p.isMatch_map_toLower (h.templates p hp) declared).symm ▸ hmatch⟩
    simp only [Option.map_some, kindOf, types.script.isMatch_map_toLower h.script, htemplates]

end TypePatterns

/-! ## Closing tags -/

namespace EmbeddingElement

variable (e : EmbeddingElement)

theorem closesAt_eq (text : List Char) : e.closesAt text =
    ("</".toList.isPrefixOf text &&
      (dropAnyCase? e.name.toList (dropBlanks (text.drop 2))).any
        fun rest => (dropBlanks rest).head? == some '>') := by
  unfold closesAt
  split
  · rename_i text
    simp only [List.drop_succ_cons, List.drop_zero]
    cases dropAnyCase? e.name.toList (dropBlanks text) <;> rfl
  · rename_i hother
    have hopener : "</".toList.isPrefixOf text = false := by
      rw [Bool.eq_false_iff, Ne, List.isPrefixOf_iff_prefix]
      rintro ⟨rest, hrest⟩
      exact hother rest hrest.symm
    rw [hopener, Bool.false_and]

/-- **A closing tag** stands in a text if it stands in its lower case form. -/
theorem closesAt_map_toLower (text : List Char) :
    e.closesAt (text.map Char.toLower) = e.closesAt text := by
  have hopener : ∀ x ∈ "</".toList, x.isAlpha = false := by decide
  have hend : ∀ rest : List Char, ((dropBlanks (rest.map Char.toLower)).head? == some '>') =
      ((dropBlanks rest).head? == some '>') := by
    intro rest
    rw [dropBlanks_map_toLower, List.head?_map]
    cases (dropBlanks rest).head? with
    | none => rfl
    | some x => exact (beq_toLower (by decide) : CaseBlind (· == '>')) x
  rw [closesAt_eq, closesAt_eq, isPrefixOf_map_toLower hopener, ← List.map_drop,
    dropBlanks_map_toLower, dropAnyCase?_map_toLower]
  simp only [Option.any_map, hend]

theorem findClosing?_map_toLower (text : List Char) :
    e.findClosing? (text.map Char.toLower) = e.findClosing? text := by
  induction text with
  | nil => rfl
  | cons c text ih =>
    have hat := e.closesAt_map_toLower (c :: text)
    rw [List.map_cons] at hat
    rw [List.map_cons, findClosing?, findClosing?, hat, ih, utf8Size_toLower]

theorem isTornName_map_toLower (name text : List Char) :
    isTornName name (text.map Char.toLower) = isTornName name text := by
  induction name generalizing text with
  | nil =>
    cases text with
    | nil => rfl
    | cons c text =>
      have hblank : ∀ c : Char, isBlank c.toLower = isBlank c := isBlank_toLower
      simp [isTornName, hblank, Function.comp_def]
  | cons n name ih =>
    cases text with
    | nil => rfl
    | cons c text => simp only [List.map_cons, isTornName, foldCase_toLower, ih]

/-- A text without letters is no other text in lower case. -/
theorem map_toLower_beq (mark : List Char) (h : ∀ x ∈ mark, x.isAlpha = false)
    (text : List Char) :
    (text.map Char.toLower == mark) = (text == mark) := by
  induction text generalizing mark with
  | nil => cases mark <;> rfl
  | cons c text ih =>
    cases mark with
    | nil => rfl
    | cons x mark =>
      have hx : (c.toLower == x) = (c == x) := beq_toLower (h x (by simp)) c
      have htail := ih _ fun y hy => h y (List.mem_cons_of_mem x hy)
      simp only [List.map_cons, List.cons_beq_cons, hx, htail]

theorem isTorn_eq (text : List Char) : e.isTorn text =
    ((text == ['<']) ||
      ("</".toList.isPrefixOf text && isTornName e.name.toList (dropBlanks (text.drop 2)))) := by
  unfold isTorn
  split
  · rfl
  · simp
  · rename_i hlone hother
    have hopener : "</".toList.isPrefixOf text = false := by
      rw [Bool.eq_false_iff, Ne, List.isPrefixOf_iff_prefix]
      rintro ⟨rest, hrest⟩
      exact hother rest hrest.symm
    have hlone' : (text == ['<']) = false := beq_eq_false_iff_ne.mpr hlone
    rw [hopener, hlone', Bool.false_and, Bool.or_false]

theorem isTorn_map_toLower (text : List Char) :
    e.isTorn (text.map Char.toLower) = e.isTorn text := by
  rw [isTorn_eq, isTorn_eq, map_toLower_beq _ (by decide), isPrefixOf_map_toLower (by decide),
    ← List.map_drop, dropBlanks_map_toLower, isTornName_map_toLower]

theorem endsTorn_map_toLower (text : List Char) :
    e.endsTorn (text.map Char.toLower) = e.endsTorn text := by
  induction text with
  | nil => rfl
  | cons c text ih =>
    have htorn := e.isTorn_map_toLower (c :: text)
    rw [List.map_cons] at htorn
    rw [List.map_cons, endsTorn, endsTorn, htorn, ih]

theorem endsInOpener_map_toLower (text : List Char) :
    endsInOpener (text.map Char.toLower) = endsInOpener text := by
  induction text with
  | nil => rfl
  | cons c text ih =>
    have hlone := map_toLower_beq ['<'] (by decide) (c :: text)
    have hopener := map_toLower_beq ['<', '/'] (by decide) (c :: text)
    rw [List.map_cons] at hlone hopener
    rw [List.map_cons, endsInOpener, endsInOpener, hlone, hopener, ih]

theorem mayTear_map_toLower (text : List Char) (moreFollows : Bool) :
    e.mayTear (text.map Char.toLower) moreFollows = e.mayTear text moreFollows := by
  rw [mayTear, mayTear, endsInOpener_map_toLower, endsTorn_map_toLower]

/-- **A token is cut at the same place** before the closing tag. -/
theorem trim_lower (c : Cursor) : e.trim c.lower = (e.trim c).lower := by
  simp only [trim, token_lower, findClosing?_map_toLower, byteSize_map_toLower, unread_lower,
    mayTear_map_toLower, atEnd_lower, rest_lower, closesAt_map_toLower]
  cases e.findClosing? c.token with
  | some offset => cases offset <;> rfl
  | none =>
    cases e.mayTear c.token (!c.atEnd) with
    | false => rfl
    | true =>
      simp only [if_true]
      cases e.closesAt (c.unread (byteSize c.token)).rest with
      | true => rfl
      | false =>
        simp only [Bool.false_eq_true, if_false]
        cases c.token with
        | nil => rfl
        | cons first token => simp only [List.map_cons, utf8Size_toLower, readBytes_lower]

end EmbeddingElement

end Mixed

end MixedMarkup
