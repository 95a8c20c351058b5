import MixedMarkup.Pattern.Expr
import MixedMarkup.Proofs.ClosingTag
import MixedMarkup.Proofs.LetterCase
import MixedMarkup.Proofs.RegionLeaving
import Mathlib.Data.List.Infix
/-!
# Patterns — runs of the matcher

The matcher tries the ways in which a pattern matches in order, and hands
each place on to what has to match there. Most parts of a pattern match in
one way or not at all, so from each place the matcher goes on at one other
(`Goes`). That holds of blanks as well, though the matcher would give them
back one by one: what follows them starts with no blank (`goes_blanks`).
Where a part may be left out there are two ways, and what counts is whether
one of them succeeds (`Tests`). A search tries the places of a text one
after the other, so it is a search for an end of the text that passes the
test (`isMatch_eq_any`).
-/

namespace MixedMarkup

open Text

/-! ## Single characters -/

namespace Text

/-- What folds to a mark is the mark. -/
theorem foldCase_eq_mark {mark c : Char} (hascii : isAscii mark = true)
    (hmark : mark.isAlpha = false) : foldCase c = mark ↔ c = mark := by
  constructor
  · intro h
    have hself : ∀ n ∈ asciiSources, (foldCase (Char.ofNat n)).isAlpha = false →
        foldCase (Char.ofNat n) = Char.ofNat n := by
      decide +kernel
    have hc := hself c.toNat (mem_asciiSources (h ▸ hascii))
    rw [Char.ofNat_toNat] at hc
    rw [← h, hc (h ▸ hmark)]
  · rintro rfl
    rw [foldCase, if_pos hascii, toLower_eq_iff hmark]

/-- The rest of a text after a character, if that is one of a kind. -/
def dropOne? (p : Char → Bool) : List Char → Option (List Char)
  | [] => none
  | c :: text => if p c then some text else none

/-- A blank folds to itself, and so to nothing that is no blank. -/
theorem foldCase_ne_of_isBlank {l c : Char} (hl : isBlank l = false) (hc : isBlank c = true) :
    foldCase c ≠ l := by
  rw [foldCase_of_isBlank hc]
  rintro rfl
  exact Bool.false_ne_true (hl.symm.trans hc)

/-- A name that starts with no blank does not stand at one. -/
theorem dropAnyCase?_of_isBlank {literal text : List Char} {c : Char}
    (hliteral : ∃ l ∈ literal.head?, isBlank l = false) (hc : isBlank c = true) :
    dropAnyCase? literal (c :: text) = none := by
  obtain ⟨l, hl, hblank⟩ := hliteral
  obtain ⟨literal, rfl⟩ := List.head?_eq_some_iff.mp hl
  rw [dropAnyCase?, if_neg (foldCase_ne_of_isBlank hblank hc)]

/-- Neither does a mark that is no blank. -/
theorem dropOne?_of_isBlank {mark c : Char} {text : List Char} (hmark : isBlank mark = false)
    (hc : isBlank c = true) : dropOne? (· == mark) (c :: text) = none := by
  have hne : (c == mark) = false := by
    rw [beq_eq_false_iff_ne]
    rintro rfl
    exact Bool.false_ne_true (hmark.symm.trans hc)
  rw [dropOne?, hne]
  rfl

end Text

namespace Pattern

namespace CharSet

variable {mark letter c : Char}

theorem has_mark (ignoreCase : Bool) (hascii : isAscii mark = true)
    (hmark : mark.isAlpha = false) : (CharSet.char mark).has ignoreCase c = (c == mark) := by
  have hfold : foldCase mark = mark := (foldCase_eq_mark hascii hmark).mpr rfl
  cases ignoreCase with
  | false =>
    rw [has, if_neg (by decide)]
    exact Bool.beq_comm
  | true =>
    rw [has, if_pos rfl, sameFold, hfold, Bool.eq_iff_iff, beq_iff_eq, beq_iff_eq, eq_comm,
      foldCase_eq_mark hascii hmark]

theorem has_letter (hfold : foldCase letter = letter) :
    (CharSet.char letter).has true c = (foldCase c == letter) := by
  rw [has, if_pos rfl, sameFold, hfold]
  exact Bool.beq_comm

end CharSet

/-! ## Places -/

namespace Place

/-- `q` is a place of the same text as `p`, not before it, and nothing is kept
between the two. -/
structure Leads (p q : Place) : Prop where
  rest : q.rest <:+ p.rest
  offset : q.offset + q.rest.length = p.offset + p.rest.length
  captures : q.captures = p.captures

variable {p q r : Place}

theorem Leads.refl (p : Place) : p.Leads p := ⟨List.suffix_rfl, rfl, rfl⟩

theorem Leads.trans (h : p.Leads q) (h' : q.Leads r) : p.Leads r :=
  ⟨h'.rest.trans h.rest, h'.offset.trans h.offset, h'.captures.trans h.captures⟩

theorem leads_step {c : Char} {rest : List Char} (h : p.rest = c :: rest) :
    p.Leads (p.step c rest) where
  rest := h ▸ List.suffix_cons c rest
  offset := by
    rw [h, List.length_cons]
    simp only [step]
    omega
  captures := rfl

/-- A place behind a text is as many characters further on. -/
theorem Leads.offset_eq (h : p.Leads q) {text : List Char} (htext : p.rest = text ++ q.rest) :
    q.offset = p.offset + text.length := by
  have hoffset := h.offset
  rw [htext, List.length_append] at hoffset
  omega

/-- The place is one of the text. -/
def In (text : List Char) (p : Place) : Prop := text.drop p.offset = p.rest

theorem In.leads {text : List Char} (hp : p.In text) (h : p.Leads q) : q.In text := by
  have hlength := h.rest.length_le
  have hoffset := h.offset
  have hq : q.offset = p.offset + (p.rest.length - q.rest.length) := by omega
  rw [In, hq, ← List.drop_drop, hp]
  exact (List.suffix_iff_eq_drop.mp h.rest).symm

end Place

/-! ## Going on in one way -/

/-- **From each place `m` goes on to `k` in one way or fails**: at what `read?`
leaves of the text, where it leaves something. -/
structure Goes (m : Rest) (read? : List Char → Option (List Char)) (k : Rest) : Prop where
  on : ∀ {p rest}, read? p.rest = some rest → ∃ q, p.Leads q ∧ q.rest = rest ∧ m p = k q
  fails : ∀ {p}, read? p.rest = none → m p = none

namespace Goes

variable {m l k : Rest} {f g : List Char → Option (List Char)}

theorem refl (k : Rest) : Goes k some k where
  on h := ⟨_, .refl _, Option.some.inj h, rfl⟩
  fails := nofun

theorem trans (h : Goes m f l) (h' : Goes l g k) : Goes m (fun text => (f text).bind g) k where
  on hread := by
    obtain ⟨rest, hf, hg⟩ := Option.bind_eq_some_iff.mp hread
    obtain ⟨q, hq, rfl, hm⟩ := h.on hf
    obtain ⟨r, hr, hrest, hl⟩ := h'.on hg
    exact ⟨r, hq.trans hr, hrest, hm.trans hl⟩
  fails hread := by
    rename_i p
    cases hf : f p.rest with
    | none => exact h.fails hf
    | some rest =>
      obtain ⟨q, -, rfl, hm⟩ := h.on hf
      rw [hf, Option.bind_some] at hread
      exact hm.trans (h'.fails hread)

/-- The same way, said of a reading that agrees. -/
theorem congr (h : Goes m f k) (hfg : f = g) : Goes m g k := hfg ▸ h

/-- Where the reading is all that there is, a match leads to its end. -/
theorem leads {p q : Place} (h : Goes m f some) (hm : m p = some q) : p.Leads q := by
  cases hf : f p.rest with
  | none => simp [h.fails hf] at hm
  | some rest =>
    obtain ⟨r, hr, -, hmr⟩ := h.on hf
    obtain rfl : q = r := Option.some.inj (hm.symm.trans hmr)
    exact hr

end Goes

variable {k : Rest} {p : Place}

/-- Whether `m` succeeds at a place can be told by a test of the text from there on. -/
def Tests (m : Rest) (test : List Char → Bool) : Prop := ∀ p : Place, (m p).isSome = test p.rest

theorem tests_some : Tests some fun _ => true := fun _ => rfl

/-- Behind a part that goes on in one way, the test is one of what is left. -/
theorem Goes.tests {m : Rest} {f : List Char → Option (List Char)} {test : List Char → Bool}
    (h : Goes m f k) (hk : Tests k test) : Tests m fun text => (f text).any test := by
  intro p
  show _ = (f p.rest).any test
  cases hf : f p.rest with
  | none => rw [h.fails hf]; rfl
  | some rest =>
    obtain ⟨q, -, rfl, hm⟩ := h.on hf
    rw [hm, hk q]
    rfl

theorem Tests.congr {m : Rest} {test test' : List Char → Bool} (h : Tests m test)
    (heq : ∀ text, test text = test' text) : Tests m test' :=
  fun p => (h p).trans (heq p.rest)

theorem Tests.eq_none {m : Rest} {test : List Char → Bool} (h : Tests m test)
    (htest : test p.rest = false) : m p = none :=
  Option.not_isSome_iff_eq_none.mp (Bool.eq_false_iff.mp ((h p).trans htest))

/-- What follows blanks: it starts with none. -/
def StopsBlanks (k : Rest) : Prop :=
  ∀ (p : Place) (c rest), p.rest = c :: rest → isBlank c = true → k p = none

theorem Goes.stopsBlanks {m : Rest} {f : List Char → Option (List Char)} (h : Goes m f k)
    (hf : ∀ c rest, isBlank c = true → f (c :: rest) = none) : StopsBlanks m := by
  intro p c rest hp hblank
  exact h.fails (by rw [hp, hf c rest hblank])

theorem Tests.stopsBlanks {test : List Char → Bool} (h : Tests k test)
    (htest : ∀ c rest, isBlank c = true → test (c :: rest) = false) : StopsBlanks k := by
  intro p c rest hp hblank
  exact h.eq_none (by rw [hp, htest c rest hblank])

namespace Expr

variable {set : CharSet} {ignoreCase : Bool}

theorem goes_one (ignoreCase : Bool) (set : CharSet) (k : Rest) :
    Goes ((Expr.one ignoreCase set).run · k) (dropOne? (set.has ignoreCase)) k where
  on hread := by
    rename_i p rest
    cases hp : p.rest with
    | nil => simp [hp, dropOne?] at hread
    | cons c cs =>
      rw [hp, dropOne?, Option.ite_none_right_eq_some, Option.some.injEq] at hread
      obtain ⟨hhas, rfl⟩ := hread
      exact ⟨p.step c cs, Place.leads_step hp, rfl, by simp [run, hp, hhas]⟩
  fails hread := by
    rename_i p
    cases hp : p.rest with
    | nil => simp [run, hp]
    | cons c cs =>
      rw [hp, dropOne?] at hread
      simp [run, hp, show set.has ignoreCase c = false by simpa using hread]

theorem goes_mark (ignoreCase : Bool) (mark : Char) (hascii : isAscii mark = true)
    (hmark : mark.isAlpha = false) (k : Rest) :
    Goes ((Expr.one ignoreCase (.char mark)).run · k) (dropOne? (· == mark)) k :=
  (goes_one ignoreCase (.char mark) k).congr <|
    congrArg dropOne? (funext fun _ => CharSet.has_mark ignoreCase hascii hmark)

/-- An optional part is tried, and left out if that does not work. -/
theorem tests_optional {body : Expr} {test test' : List Char → Bool}
    (hbody : Tests (body.run · k) test) (hk : Tests k test') :
    Tests ((Expr.rep true 0 (some 1) body).run · k) fun text => test text || test' text := by
  intro p
  show (body.run p k <|> k p).isSome = (test p.rest || test' p.rest)
  rw [← hbody p, ← hk p, Option.orElse_eq_orElse, Option.orElse_eq_or, Option.isSome_or]

theorem tests_endOfText : Tests ((Expr.seq .endOfText .empty).run · some) List.isEmpty := by
  intro p
  cases hp : p.rest <;> simp [run, hp]

/-- One or more characters of a set: after the first one, as many as there are. -/
theorem run_oneOrMore (p : Place) (k : Rest) :
    (Expr.rep true 1 none (.one ignoreCase set)).run p k =
      match p.rest with
      | [] => none
      | c :: cs =>
        if set.has ignoreCase c then
          (Expr.rep true 0 none (.one ignoreCase set)).run (p.step c cs) k
        else none := by
  show atLeastOne (Expr.one ignoreCase set).run true (p.rest.length + 1) p k = _
  cases hp : p.rest with
  | nil => simp [atLeastOne, run, hp]
  | cons c cs =>
    simp only [atLeastOne, run, hp]
    by_cases hhas : set.has ignoreCase c = true
    · simp [hhas, unbounded, Place.step]
    · simp [hhas]

/-- Any number of characters of a set: one more where there is one, or none. -/
theorem run_anyNumber (p : Place) (k : Rest) :
    (Expr.rep true 0 none (.one ignoreCase set)).run p k =
      ((match p.rest with
        | [] => none
        | c :: cs =>
          if set.has ignoreCase c then
            (Expr.rep true 0 none (.one ignoreCase set)).run (p.step c cs) k
          else none) <|> k p) := by
  rw [← run_oneOrMore]
  rfl

/-- Any number of blanks. -/
def blanks : Expr := .rep true 0 none (.one true .blank)

theorem run_blanks (p : Place) (k : Rest) :
    blanks.run p k = ((match p.rest with
      | [] => none
      | c :: cs => if isBlank c then blanks.run (p.step c cs) k else none) <|> k p) :=
  run_anyNumber p k

/-- **All blanks are read**, if what follows starts with none. To give one back does not help. -/
theorem goes_blanks (hstop : StopsBlanks k) :
    Goes (blanks.run · k) (fun text => some (dropBlanks text)) k where
  fails := nofun
  on hread := by
    rename_i p rest
    obtain rfl := Option.some.inj hread
    clear hread
    induction hp : p.rest generalizing p with
    | nil => exact ⟨p, .refl p, hp, by simp [run_blanks, hp]⟩
    | cons c cs ih =>
      by_cases hblank : isBlank c = true
      · obtain ⟨q, hq, hrest, hrun⟩ := ih (p := p.step c cs) rfl
        have hgive : k p = none := hstop p c cs hp hblank
        refine ⟨q, (Place.leads_step hp).trans hq, ?_, ?_⟩
        · rw [hrest, dropBlanks, dropBlanks, List.dropWhile_cons_of_pos hblank]
        · simp [run_blanks p, hp, hblank, hgive, hrun]
      · refine ⟨p, .refl p, ?_, by simp [run_blanks, hp, hblank]⟩
        rw [hp, dropBlanks_of_head (Bool.eq_false_iff.mpr hblank)]

/-- The letters of a name in any case, and then an expression. -/
def named (name : List Char) (e : Expr) : Expr :=
  name.foldr (fun letter e => .seq (.one true (.char letter)) e) e

theorem goes_named {name : List Char} (hfold : ∀ l ∈ name, foldCase l = l) (e : Expr) (k : Rest) :
    Goes ((named name e).run · k) (dropAnyCase? name) (e.run · k) := by
  induction name with
  | nil => exact .refl _
  | cons l name ih =>
    rw [List.forall_mem_cons] at hfold
    refine ((goes_one true (.char l) _).trans (ih hfold.2)).congr ?_
    funext text
    cases text with
    | nil => rfl
    | cons c text =>
      simp only [dropOne?, CharSet.has_letter hfold.1, dropAnyCase?, beq_iff_eq]
      split <;> rfl

end Expr

/-! ## The first match -/

/-- There is a match if some end of the text passes the test that matches pass. -/
theorem isMatch_eq_any {p : Pattern} {test : List Char → Bool}
    (h : Tests p.expr.matchAt test) (text : List Char) :
    p.isMatch text = text.tails.any test := by
  have hfrom : ∀ q : Place, p.expr.matchFrom q.rest q = q.rest.tails.any test := by
    rintro ⟨offset, previous, rest, captures⟩
    induction rest generalizing offset previous with
    | nil => simp [Expr.matchFrom, h _]
    | cons c rest ih =>
      simp only [Expr.matchFrom, h _, List.tails_cons, List.any_cons]
      exact congrArg _ (ih (offset + 1) (some c))
  exact hfrom (.ofText text)

/-- What has to stand at the start of the text matches there or nowhere. -/
theorem Expr.matchFrom_startOfText (e : Expr) (text : List Char) :
    (Expr.seq .startOfText e).matchFrom text (.ofText text) =
      (e.matchAt (.ofText text)).isSome := by
  have hlater : ∀ (text : List Char) (p : Place), p.previous.isSome →
      (Expr.seq .startOfText e).matchFrom text p = false := by
    intro text
    induction text with
    | nil =>
      intro p hp
      simp [matchFrom, matchAt, run, Option.isNone_eq_false_iff.mpr hp]
    | cons c text ih =>
      intro p hp
      simp [matchFrom, matchAt, run, Option.isNone_eq_false_iff.mpr hp, ih (p.step c text) rfl]
  cases text with
  | nil => rfl
  | cons c text =>
    rw [matchFrom, hlater text _ rfl, Bool.or_false]
    rfl

/-- The text before the first match, and the place where the match ends. -/
def Expr.searchFrom? (e : Expr) : List Char → Place → Option (List Char × Place)
  | [], p => (e.matchAt p).map ([], ·)
  | c :: cs, p =>
    match e.matchAt p with
    | some q => some ([], q)
    | none => (e.searchFrom? cs (p.step c cs)).map fun found => (c :: found.1, found.2)

/-- The text before the first match of a pattern, and what the first group has kept of it. -/
def search? (p : Pattern) (text : List Char) : Option (List Char × Option (List Char)) :=
  (p.expr.searchFrom? text (.ofText text)).map fun found =>
    (found.1, (found.2.captures.find? (·.number == 1)).map (·.text text))

end Pattern

end MixedMarkup
