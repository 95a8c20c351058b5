import MixedMarkup.Proofs.DeclaredType
import MixedMarkup.Proofs.PatternRuns
import MixedMarkup.Proofs.TornTags
/-!
# Mixed documents — the recognisers as patterns

The end of a region and the type of a script are looked for by recognisers
of their own, which can be followed step by step. Each of them stands for a
fixed pattern. Here the pattern is read from its written form, and the
matcher of all patterns finds with it what the recogniser finds: the closing
tag at a place (`closesAt_eq_isMatch`) and the first one of a text
(`findClosing?_eq_search?`), a torn one at the end (`endsTorn_eq_isMatch`,
`endsInOpener_eq_isMatch`), and the type that a line declares
(`typeOnLine?_eq_search?`).
-/

namespace MixedMarkup

open Text

namespace Mixed

open Pattern Expr

namespace EmbeddingElement

variable (e : EmbeddingElement)

theorem foldCase_of_mem_name : ∀ l ∈ e.name.toList, foldCase l = l := by
  cases e <;> decide

/-- The names start with a letter, and so with no blank. -/
theorem exists_head_name : ∃ l ∈ e.name.toList.head?, isBlank l = false := by
  cases e <;> exact ⟨'s', rfl, by decide⟩

/-! ## The closing tag -/

/-- What is written for the closing tag of an element. -/
def closingText : String := "</\\s*" ++ e.name ++ "\\s*>"

/-- The expression for the closing tag. -/
def closing : Expr :=
  .seq (.one true (.char '<')) (.seq (.one true (.char '/')) (.seq blanks
    (named e.name.toList (.seq blanks (.seq (.one true (.char '>')) .empty)))))

theorem read_closing : Pattern.read? false ("(?i)" ++ e.closingText) = some ⟨e.closing, 0⟩ := by
  cases e <;> decide +kernel

theorem read_closingAtStart :
    Pattern.read? false ("(?i)^" ++ e.closingText) = some ⟨.seq .startOfText e.closing, 0⟩ := by
  cases e <;> decide +kernel

/-- What a closing tag at the start of a text leaves of it. -/
def afterClosing? (text : List Char) : Option (List Char) :=
  (dropOne? (· == '<') text).bind fun text => (dropOne? (· == '/') text).bind fun text =>
    (dropAnyCase? e.name.toList (dropBlanks text)).bind fun text =>
      dropOne? (· == '>') (dropBlanks text)

theorem closesAt_eq_any (text : List Char) :
    e.closesAt text = (e.afterClosing? text).any fun _ => true := by
  match text with
  | [] => rfl
  | [c] => by_cases hc : c = '<' <;> simp [closesAt, afterClosing?, dropOne?, hc]
  | c :: d :: text =>
    by_cases hc : c = '<'
    · by_cases hd : d = '/'
      · simp only [closesAt, afterClosing?, dropOne?, hc, hd, beq_self_eq_true, if_true,
          Option.bind_some]
        cases dropAnyCase? e.name.toList (dropBlanks text) with
        | none => rfl
        | some rest =>
          simp only [Option.bind_some]
          cases dropBlanks rest with
          | nil => rfl
          | cons x rest => cases hx : x == '>' <;> simp_all
      · simp [closesAt, afterClosing?, dropOne?, hc, hd]
    · simp [closesAt, afterClosing?, dropOne?, hc]

theorem goes_closing : Goes e.closing.matchAt e.afterClosing? some := by
  have hgreater : Goes ((Expr.seq (.one true (.char '>')) .empty).run · some)
      (dropOne? (· == '>')) some :=
    goes_mark true '>' (by decide) (by decide) some
  have hgap := hgreater.stopsBlanks fun _ _ hc => dropOne?_of_isBlank (by decide) hc
  have hend : Goes ((Expr.seq blanks (.seq (.one true (.char '>')) .empty)).run · some)
      (fun text => dropOne? (· == '>') (dropBlanks text)) some :=
    (goes_blanks hgap).trans hgreater
  have hname := (goes_named e.foldCase_of_mem_name _ some).trans hend
  have hgap' := hname.stopsBlanks fun c rest hc => by
    rw [dropAnyCase?_of_isBlank e.exists_head_name hc, Option.bind_none]
  exact (goes_mark true '<' (by decide) (by decide) _).trans
    ((goes_mark true '/' (by decide) (by decide) _).trans ((goes_blanks hgap').trans hname))

theorem tests_closing : Tests e.closing.matchAt e.closesAt :=
  (e.goes_closing.tests tests_some).congr fun text => (e.closesAt_eq_any text).symm

/-- **The closing tag at the start of a text** is the match of its pattern. -/
theorem closesAt_eq_isMatch :
    ∃ p, Pattern.read? false ("(?i)^" ++ e.closingText) = some p ∧
      ∀ text, e.closesAt text = p.isMatch text := by
  refine ⟨_, e.read_closingAtStart, fun text => ?_⟩
  rw [isMatch, matchFrom_startOfText]
  exact (e.tests_closing (.ofText text)).symm

/-- **The first closing tag** is the first match of its pattern. -/
theorem findClosing?_eq_search? :
    ∃ p, Pattern.read? false ("(?i)" ++ e.closingText) = some p ∧
      ∀ text, e.findClosing? text = (p.search? text).map fun found => byteSize found.1 := by
  have hfrom : ∀ p : Pattern.Place, e.findClosing? p.rest =
      (e.closing.searchFrom? p.rest p).map fun found => byteSize found.1 := by
    rintro ⟨offset, previous, rest, captures⟩
    induction rest generalizing offset previous with
    | nil =>
      have hmatch := e.tests_closing ⟨offset, previous, [], captures⟩
      rw [searchFrom?, Option.not_isSome_iff_eq_none.mp (Bool.eq_false_iff.mp hmatch)]
      rfl
    | cons c rest ih =>
      have hmatch := e.tests_closing ⟨offset, previous, c :: rest, captures⟩
      rw [findClosing?, searchFrom?, ← hmatch]
      cases e.closing.matchAt ⟨offset, previous, c :: rest, captures⟩ with
      | some q => rfl
      | none =>
        rw [Option.isSome_none, if_neg Bool.false_ne_true, ih (offset + 1) (some c),
          Option.map_map]
        simp only [Option.map_map]
        rfl
  refine ⟨_, e.read_closing, fun text => ?_⟩
  rw [search?, Option.map_map]
  exact hfrom (.ofText text)

/-! ## The torn tag -/

/-- What is written for a name that may break off, and for the blanks after it. -/
def tailText : List Char → String
  | [] => "\\s*"
  | letter :: name => String.singleton letter ++ "(?:" ++ tailText name ++ ")?"

/-- The expression for a name that may break off, and for the blanks after it. -/
def tail : List Char → Expr
  | [] => .seq blanks .empty
  | letter :: name =>
    .seq (.one true (.char letter)) (.seq (.rep true 0 (some 1) (tail name)) .empty)

/-- What is written for a closing tag that breaks off at the end of the text. -/
def tornText : String := "<(?:/\\s*(?:" ++ tailText e.name.toList ++ ")?)?$"

/-- The part of a torn tag behind its `<`. -/
def tornBehind : Expr :=
  .seq (.one true (.char '/')) (.seq blanks
    (.seq (.rep true 0 (some 1) (tail e.name.toList)) .empty))

/-- The expression for a closing tag that breaks off at the end of the text. -/
def torn : Expr :=
  .seq (.one true (.char '<'))
    (.seq (.rep true 0 (some 1) e.tornBehind) (.seq .endOfText .empty))

theorem read_torn : Pattern.read? false ("(?i)" ++ e.tornText) = some ⟨e.torn, 0⟩ := by
  cases e <;> decide +kernel

variable {k : Rest}

/-- **A name that may break off**, or be missing, at the end of the text. -/
theorem tests_tail (hk : Tests k List.isEmpty) {name : List Char}
    (hfold : ∀ l ∈ name, foldCase l = l) :
    Tests ((Expr.rep true 0 (some 1) (tail name)).run · k) (isTornName name) := by
  induction name with
  | nil =>
    have hblanks : Tests ((tail []).run · k) _ :=
      (goes_blanks (hk.stopsBlanks fun _ _ _ => rfl)).tests hk
    refine (tests_optional hblanks hk).congr fun text => ?_
    cases text with
    | nil => rfl
    | cons c text =>
      rw [Bool.eq_iff_iff]
      simp [isTornName, dropBlanks]
  | cons l name ih =>
    rw [List.forall_mem_cons] at hfold
    have hletter : Tests ((tail (l :: name)).run · k) _ :=
      (goes_one true (.char l) _).tests (ih hfold.2)
    refine (tests_optional hletter hk).congr fun text => ?_
    cases text with
    | nil => rfl
    | cons c text =>
      simp only [dropOne?, CharSet.has_letter hfold.1, isTornName]
      cases foldCase c == l <;> simp

/-- The name of an element does not break off before a blank. -/
theorem isTornName_of_isBlank {name rest : List Char} {c : Char}
    (hname : ∃ l ∈ name.head?, isBlank l = false) (hc : isBlank c = true) :
    isTornName name (c :: rest) = false := by
  obtain ⟨l, hl, hblank⟩ := hname
  obtain ⟨name, rfl⟩ := List.head?_eq_some_iff.mp hl
  rw [isTornName, beq_eq_false_iff_ne.mpr (foldCase_ne_of_isBlank hblank hc), Bool.false_and]

theorem tests_tornBehind (hk : Tests k List.isEmpty) :
    Tests (e.tornBehind.run · k) fun text => (dropOne? (· == '/') text).any fun text =>
      isTornName e.name.toList (dropBlanks text) := by
  have hname := tests_tail hk e.foldCase_of_mem_name
  have hgap := hname.stopsBlanks fun c rest hc => isTornName_of_isBlank e.exists_head_name hc
  exact (goes_mark true '/' (by decide) (by decide) _).tests ((goes_blanks hgap).tests hname)

theorem tests_torn : Tests e.torn.matchAt e.isTorn := by
  have hbehind := tests_optional (e.tests_tornBehind tests_endOfText) tests_endOfText
  have hless := (goes_mark true '<' (by decide) (by decide) _).tests hbehind
  refine hless.congr fun text => ?_
  match text with
  | [] => rfl
  | [c] => by_cases hc : c = '<' <;> simp [isTorn, dropOne?, hc]
  | c :: d :: text =>
    by_cases hc : c = '<' <;> by_cases hd : d = '/' <;> simp [isTorn, dropOne?, hc, hd]

/-- **A torn tag at the end of a text** is a match of its pattern. -/
theorem endsTorn_eq_isMatch :
    ∃ p, Pattern.read? false ("(?i)" ++ e.tornText) = some p ∧
      ∀ text, e.endsTorn text = p.isMatch text := by
  refine ⟨_, e.read_torn, fun text => ?_⟩
  rw [isMatch_eq_any e.tests_torn]
  induction text with
  | nil => rfl
  | cons c text ih => rw [endsTorn, List.tails_cons, List.any_cons, ih]

/-- The expression for a `<` or `</` at the end of the text. -/
def opener : Expr :=
  .seq (.one false (.char '<')) (.seq (.rep true 0 (some 1) (.one false (.char '/')))
    (.seq .endOfText .empty))

theorem tests_opener :
    Tests opener.matchAt fun text => text == ['<'] || text == ['<', '/'] := by
  have hslash := (goes_mark false '/' (by decide) (by decide) _).tests tests_endOfText
  have hbehind := tests_optional hslash tests_endOfText
  have hless := (goes_mark false '<' (by decide) (by decide) _).tests hbehind
  refine hless.congr fun text => ?_
  match text with
  | [] => rfl
  | [c] => by_cases hc : c = '<' <;> simp [dropOne?, hc]
  | c :: d :: text => by_cases hc : c = '<' <;> by_cases hd : d = '/' <;> simp [dropOne?, hc, hd]

/-- **An opener at the end of a text** is a match of its pattern. -/
theorem endsInOpener_eq_isMatch :
    ∃ p, Pattern.read? false "</?$" = some p ∧ ∀ text, endsInOpener text = p.isMatch text := by
  refine ⟨⟨opener, 0⟩, by decide +kernel, fun text => ?_⟩
  have hany : (⟨opener, 0⟩ : Pattern).isMatch text =
      text.tails.any fun text => text == ['<'] || text == ['<', '/'] :=
    isMatch_eq_any tests_opener text
  rw [hany]
  clear hany
  induction text with
  | nil => rfl
  | cons c text ih => rw [endsInOpener, List.tails_cons, List.any_cons, ih]

end EmbeddingElement

/-! ## The declared type -/

/-- Quotes of both kinds. -/
def quotes : CharSet := .union (.union .none (.char '\x22')) (.char '\x27')

/-- Any number of characters of a line. -/
def lineChars : Expr := .rep true 0 none (.one true .dot)

/-- The expression for a value up to a quote, which keeps the value. -/
def quotedValue : Expr :=
  .seq (.group 1 (.seq (.rep true 1 none (.one true .dot)) .empty)) (.seq (.one true quotes) .empty)

/-- The expression for the attribute that declares a type. -/
def typeAttribute : Expr :=
  named "type".toList (.seq blanks (.seq (.one true (.char '=')) (.seq blanks
    (.seq (.one true quotes) quotedValue))))

theorem read_typeAttribute :
    Pattern.read? false "(?i)type\\s*=\\s*[\x22\x27](.+)[\x22\x27]" = some ⟨typeAttribute, 1⟩ := by
  decide +kernel

theorem has_quotes (c : Char) : quotes.has true c = isQuote c := by
  show ((CharSet.char '\x22').has true c || (CharSet.char '\x27').has true c) = _
  rw [CharSet.has_mark true (by decide) (by decide), CharSet.has_mark true (by decide) (by decide)]
  rfl

theorem has_dot (c : Char) : CharSet.dot.has true c = (c != '\n') := by
  rw [CharSet.dot, CharSet.has, CharSet.has_mark true (by decide) (by decide)]
  rfl

variable {k : Rest}

theorem run_lineChars (p : Pattern.Place) (k : Rest) :
    lineChars.run p k = ((match p.rest with
      | [] => none
      | c :: cs => if c != '\n' then lineChars.run (p.step c cs) k else none) <|> k p) := by
  rw [lineChars, run_anyNumber]
  cases p.rest with
  | nil => rfl
  | cons c cs => simp only [has_dot]

/-- **As much of the line as a quote can follow** is read, so the last quote
ends the value. -/
theorem exists_run_lineChars (hk : Tests k fun text => text.head?.any isQuote) (p : Pattern.Place) :
    (∀ value, beforeLastQuote? (p.rest.takeWhile (· != '\n')) = some value →
      ∃ q, p.Leads q ∧ p.rest = value ++ q.rest ∧ (k q).isSome ∧ lineChars.run p k = k q) ∧
    (beforeLastQuote? (p.rest.takeWhile (· != '\n')) = none → lineChars.run p k = none) := by
  induction hp : p.rest generalizing p with
  | nil =>
    have hnone : k p = none := hk.eq_none (by rw [hp]; rfl)
    exact ⟨by simp [beforeLastQuote?], fun _ => by simp [run_lineChars, hp, hnone]⟩
  | cons c rest ih =>
    by_cases hfeed : c = '\n'
    · have hnone : k p = none := hk.eq_none (by simp [hp, hfeed, isQuote])
      have htake : (c :: rest).takeWhile (· != '\n') = [] := by simp [hfeed]
      rw [htake]
      exact ⟨by simp [beforeLastQuote?], fun _ => by simp [run_lineChars, hp, hfeed, hnone]⟩
    have htake : (c :: rest).takeWhile (· != '\n') = c :: rest.takeWhile (· != '\n') := by
      simp [hfeed]
    have hrun : lineChars.run p k = (lineChars.run (p.step c rest) k <|> k p) := by
      simp [run_lineChars p, hp, hfeed]
    obtain ⟨hsome, hnone⟩ := ih (p.step c rest) rfl
    rw [htake, beforeLastQuote?, hrun]
    cases hlast : beforeLastQuote? (rest.takeWhile (· != '\n')) with
    | some value =>
      obtain ⟨q, hq, hrest, hkq, hrunq⟩ := hsome value hlast
      refine ⟨fun v hv => ?_, by simp⟩
      obtain rfl : c :: value = v := Option.some.inj hv
      refine ⟨q, (Pattern.Place.leads_step hp).trans hq, congrArg (c :: ·) hrest, hkq, ?_⟩
      obtain ⟨r, hr⟩ := Option.isSome_iff_exists.mp hkq
      rw [hrunq, hr]
      rfl
    | none =>
      rw [hnone hlast]
      cases hc : isQuote c with
      | true =>
        have hkp : (k p).isSome = true := (hk p).trans (by rw [hp]; exact hc)
        refine ⟨fun v hv => ?_, by simp⟩
        obtain rfl : [] = v := Option.some.inj hv
        exact ⟨p, .refl p, hp.symm, hkp, rfl⟩
      | false =>
        have hkp : k p = none := hk.eq_none (by rw [hp]; exact hc)
        exact ⟨by simp, fun _ => hkp⟩

/-- Behind a first character that is no line feed a value is what stands
before the last quote. -/
theorem valueAfterQuote?_cons {c : Char} {rest : List Char} (hfeed : c ≠ '\n') :
    valueAfterQuote? (c :: rest) =
      (beforeLastQuote? (rest.takeWhile (· != '\n'))).map (c :: ·) := by
  have htake : (c :: rest).takeWhile (· != '\n') = c :: rest.takeWhile (· != '\n') := by
    simp [hfeed]
  rw [valueAfterQuote?, htake, beforeLastQuote?]
  cases beforeLastQuote? (rest.takeWhile (· != '\n')) with
  | some value => rfl
  | none => cases isQuote c <;> rfl

theorem goes_quote (k : Rest) : Goes ((Expr.one true quotes).run · k) (dropOne? isQuote) k :=
  (goes_one true quotes k).congr (congrArg dropOne? (funext has_quotes))

/-- The quote that ends a value, after the value has been kept. -/
def endOfValue (start : Nat) : Rest := fun q => (Expr.one true quotes).run (q.keep 1 start) some

theorem tests_endOfValue (start : Nat) :
    Tests (endOfValue start) fun text => text.head?.any isQuote := by
  intro q
  rw [endOfValue, (goes_quote some).tests tests_some (q.keep 1 start)]
  show (dropOne? isQuote q.rest).any _ = _
  cases q.rest with
  | nil => rfl
  | cons c rest => cases hc : isQuote c <;> simp [dropOne?, hc]

/-- **A value is kept from its first character to the last quote**, and there
is no match without a quote behind that character. -/
theorem exists_run_quotedValue (p : Pattern.Place) :
    (∀ value, valueAfterQuote? p.rest = some value → ∃ q, quotedValue.run p some = some q ∧
      q.captures = ⟨1, p.offset, p.offset + value.length⟩ :: p.captures ∧ value <+: p.rest) ∧
    (valueAfterQuote? p.rest = none → quotedValue.run p some = none) := by
  have hrun : quotedValue.run p some =
      (Expr.rep true 1 none (.one true .dot)).run p (endOfValue p.offset) := rfl
  rw [hrun, run_oneOrMore]
  cases hp : p.rest with
  | nil => exact ⟨by simp [valueAfterQuote?, beforeLastQuote?], fun _ => rfl⟩
  | cons c rest =>
    by_cases hfeed : c = '\n'
    · have hvalue : valueAfterQuote? (c :: rest) = none := by
        simp [valueAfterQuote?, hfeed, beforeLastQuote?]
      rw [hvalue]
      exact ⟨by simp, fun _ => by simp [has_dot, hfeed]⟩
    · have hdot : CharSet.dot.has true c = true := by simp [has_dot, hfeed]
      obtain ⟨hsome, hnone⟩ := exists_run_lineChars (tests_endOfValue p.offset) (p.step c rest)
      simp only [hdot, if_true, valueAfterQuote?_cons hfeed]
      refine ⟨fun v hv => ?_, fun hv => hnone (Option.map_eq_none_iff.mp hv)⟩
      obtain ⟨value, hlast, rfl⟩ := Option.map_eq_some_iff.mp hv
      obtain ⟨q, hq, hrest, hend, hlineChars⟩ := hsome value hlast
      obtain ⟨r, hr⟩ := Option.isSome_iff_exists.mp hend
      have hpq : p.Leads q := (Pattern.Place.leads_step hp).trans hq
      have hqr : (q.keep 1 p.offset).Leads r := (goes_quote some).leads hr
      have hstop : q.offset = p.offset + (c :: value).length :=
        hpq.offset_eq (hp.trans (congrArg (c :: ·) hrest))
      refine ⟨r, hlineChars.trans hr, ?_, ⟨q.rest, congrArg (c :: ·) hrest.symm⟩⟩
      rw [hqr.captures, ← hstop, ← hpq.captures]
      rfl

theorem isQuote_of_isBlank {c : Char} (hc : isBlank c = true) : isQuote c = false := by
  cases hquote : isQuote c with
  | false => rfl
  | true =>
    rw [isQuote, Bool.or_eq_true, beq_iff_eq, beq_iff_eq] at hquote
    rcases hquote with rfl | rfl <;> exact absurd hc (by decide)

/-- What the opening of a `type` attribute at the start of a text leaves of it. -/
def afterTypeOpening? (text : List Char) : Option (List Char) :=
  (dropAnyCase? "type".toList text).bind fun text =>
    (dropOne? (· == '=') (dropBlanks text)).bind fun text => dropOne? isQuote (dropBlanks text)

theorem typeAt?_eq_bind (text : List Char) :
    typeAt? text = (afterTypeOpening? text).bind valueAfterQuote? := by
  rw [typeAt?, afterTypeOpening?]
  cases dropAnyCase? "type".toList text with
  | none => rfl
  | some text =>
    simp only [bind, Option.bind_some]
    cases dropBlanks text with
    | nil => rfl
    | cons c text =>
      by_cases hc : c = '='
      · simp only [hc, dropOne?, beq_self_eq_true, if_true, Option.bind_some]
        cases dropBlanks text with
        | nil => rfl
        | cons q text => cases hq : isQuote q <;> simp [hq]
      · simp [dropOne?, hc]

theorem goes_typeAttribute :
    Goes typeAttribute.matchAt afterTypeOpening? (quotedValue.run · some) := by
  have hquote := goes_quote (quotedValue.run · some)
  have hgap := hquote.stopsBlanks fun c rest hc => by
    rw [dropOne?, isQuote_of_isBlank hc]
    rfl
  have hequals := (goes_mark true '=' (by decide) (by decide) _).trans
    ((goes_blanks hgap).trans hquote)
  have hgap' := hequals.stopsBlanks fun c rest hc => by
    rw [dropOne?_of_isBlank (by decide) hc, Option.bind_none]
  exact (goes_named (by decide) _ some).trans ((goes_blanks hgap').trans hequals)

theorem exists_matchAt_typeAttribute {line : List Char} {p : Pattern.Place} (hp : p.In line) :
    (∀ value, typeAt? p.rest = some value → ∃ q, typeAttribute.matchAt p = some q ∧
      (q.captures.find? (·.number == 1)).map (·.text line) = some value) ∧
    (typeAt? p.rest = none → typeAttribute.matchAt p = none) := by
  rw [typeAt?_eq_bind]
  cases hopening : afterTypeOpening? p.rest with
  | none => exact ⟨nofun, fun _ => goes_typeAttribute.fails hopening⟩
  | some rest =>
    obtain ⟨q, hq, rfl, hmatch⟩ := goes_typeAttribute.on hopening
    obtain ⟨hsome, hnone⟩ := exists_run_quotedValue q
    rw [hmatch]
    refine ⟨fun value hvalue => ?_, hnone⟩
    obtain ⟨r, hr, hkept, hprefix⟩ := hsome value hvalue
    refine ⟨r, hr, ?_⟩
    have htext : (line.drop q.offset).take (q.offset + value.length - q.offset) = value := by
      rw [hp.leads hq, Nat.add_sub_cancel_left]
      exact (List.prefix_iff_eq_take.mp hprefix).symm
    rw [hkept]
    exact congrArg some htext

/-- **The type that a line declares** is what the first match of the pattern keeps. -/
theorem typeOnLine?_eq_search? :
    ∃ p, Pattern.read? false "(?i)type\\s*=\\s*[\x22\x27](.+)[\x22\x27]" = some p ∧
      ∀ line, typeOnLine? line = (p.search? line).bind (·.2) := by
  refine ⟨_, read_typeAttribute, fun line => ?_⟩
  have hfrom : ∀ p : Pattern.Place, p.In line → typeOnLine? p.rest =
      (typeAttribute.searchFrom? p.rest p).bind fun found =>
        (found.2.captures.find? (·.number == 1)).map (·.text line) := by
    intro p hp
    obtain ⟨hsome, hnone⟩ := exists_matchAt_typeAttribute hp
    induction hrest : p.rest generalizing p with
    | nil =>
      rw [searchFrom?, hnone (by rw [hrest]; rfl)]
      rfl
    | cons c rest ih =>
      have hstep : (p.step c rest).In line := hp.leads (Pattern.Place.leads_step hrest)
      rw [typeOnLine?, searchFrom?, ← hrest]
      cases hvalue : typeAt? p.rest with
      | some value =>
        obtain ⟨q, hq, hkept⟩ := hsome value hvalue
        rw [hq]
        exact hkept.symm
      | none =>
        obtain ⟨hsome, hnone'⟩ := exists_matchAt_typeAttribute hstep
        have hmore := ih (p.step c rest) hstep hsome hnone' rfl
        rw [hnone hvalue]
        simp only [Option.bind_map]
        exact hmore
  rw [search?, Option.bind_map]
  exact hfrom (.ofText line) rfl

end Mixed

end MixedMarkup
