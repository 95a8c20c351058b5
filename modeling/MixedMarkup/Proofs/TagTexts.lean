import MixedMarkup.Proofs.OpenElements
import MixedMarkup.Proofs.Passages
import MixedMarkup.Proofs.RegionLeaving
/-!
# Markup — the texts of tags

The pieces that markup is written with, and what each of them does to the
html tokenizer: which states it carries to which, with no token an error, on
whatever lines it is laid out. Blanks may stand for line feeds in all of
them. From the pieces of a tag come its attributes (`carries_attributes`) and
from these the opening tag up to its end (`carries_openingTag`); the two ends
that a tag may have (`carries_tagEnd`), a closing tag
(`carries_closingTag`), plain text and comments stand beside them.
-/

namespace MixedMarkup

open Cursor Text

namespace Markup

/-! ## What tags are written with -/

/-- Blanks, or none. -/
structure Gap where
  text : List Char
  blanks : ∀ x ∈ text, isBlank x = true

/-- A name, or a value without quotes. -/
structure Word where
  text : List Char
  nonempty : text ≠ []
  chars : ∀ x ∈ text, isWordChar x = true ∧ x ≠ '/'

/-- The name of an opening tag, which would otherwise be no tag. -/
structure TagWord extends Word where
  plain : ∀ x ∈ text.head?, x ≠ '!' ∧ x ≠ '?'

/-- The value of an attribute. -/
inductive AttributeValue where
  | unquoted (word : Word)
  | quoted (quote : Char) (content : List Char) (isQuote : quote = '\x22' ∨ quote = '\x27')
      (free : quote ∉ content)

namespace AttributeValue

/-- The value as it is written. -/
def text : AttributeValue → List Char
  | unquoted word => word.text
  | quoted quote content _ _ => [quote] ++ (content ++ [quote])

end AttributeValue

/-- An attribute with the blanks before it. What follows its name is a value
with blanks on both sides of the equals sign, or nothing. -/
structure Attribute where
  gap : Gap
  separated : gap.text ≠ []
  name : Word
  value : Option (Gap × Gap × AttributeValue)

namespace Attribute

/-- What is written of an attribute after its name. -/
def valueText : Option (Gap × Gap × AttributeValue) → List Char
  | none => []
  | some (gap, gap', value) => gap.text ++ (['='] ++ (gap'.text ++ value.text))

/-- The attribute as it is written. -/
def text (a : Attribute) : List Char :=
  a.gap.text ++ (a.name.text ++ valueText a.value)

end Attribute

/-- An opening tag up to its end. -/
structure OpeningTag where
  word : TagWord
  attributes : List Attribute
  gap : Gap

namespace OpeningTag

/-- The name of the element. -/
def name (t : OpeningTag) : String := Flavour.html.elementName t.word.text

/-- The tag as it is written, without its end. -/
def text (t : OpeningTag) : List Char :=
  ['<'] ++ (t.word.text ++ (t.attributes.flatMap Attribute.text ++ t.gap.text))

end OpeningTag

/-- The end of an opening tag, which may close the element. -/
def tagEnd (selfClosed : Bool) : List Char := if selfClosed then ['/', '>'] else ['>']

/-- A closing tag for the elements of a name. -/
structure ClosingTag (name : String) where
  word : Word
  gap : Gap
  fits : Flavour.html.elementName word.text = name

namespace ClosingTag

/-- The closing tag as it is written. -/
def text {name : String} (t : ClosingTag name) : List Char :=
  ['<', '/'] ++ (t.word.text ++ (t.gap.text ++ ['>']))

end ClosingTag

/-- Whether a character may stand in plain text. -/
def isPlain (c : Char) : Bool := c != '&' && c != '<'

/-- Text in which neither tags nor entities stand. -/
structure PlainText where
  text : List Char
  plain : ∀ x ∈ text, isPlain x = true

/-- The text that begins a verbatim construct. -/
def Verbatim.opener : Verbatim → List Char
  | comment => "<!--".toList
  | cdata => "<![CDATA[".toList
  | instruction => "<?".toList

/-- The text of a comment. -/
structure CommentText where
  text : List Char
  free : ¬ "-->".toList <:+: text

/-! ## Where they stop -/

variable {c : Cursor} {s : State} {zone : Zone} {stage : Stage} {name : String}
variable {context : List Element} {top : Element} {left more after : List Char}

theorem Gap.head?_append (g : Gap) {p : Char → Bool} {last : Char}
    (hp : ∀ x, isBlank x = true → p x = false) (hlast : p last = false) (after : List Char) :
    ∀ x ∈ (g.text ++ ([last] ++ after)).head?, p x = false :=
  head?_of_blanks g.blanks hp hlast

theorem Word.head?_append (w : Word) (after : List Char) :
    ∀ x ∈ (w.text ++ after).head?, isBlank x = false := by
  intro x hx
  obtain ⟨y, text, hy⟩ := List.exists_cons_of_ne_nil w.nonempty
  obtain rfl : y = x := by simpa [hy] using hx
  exact isBlank_of_isWordChar (w.chars y (by simp [hy])).1

theorem Word.no_feed (w : Word) : '\n' ∉ w.text := fun h =>
  absurd (w.chars _ h).1 (by decide)

theorem AttributeValue.head?_append (v : AttributeValue) (after : List Char) :
    ∀ x ∈ (v.text ++ after).head?, isBlank x = false := by
  cases v with
  | unquoted word => exact word.head?_append after
  | quoted quote content hquote _ =>
    intro x hx
    obtain rfl : quote = x := by simpa [text] using hx
    rcases hquote with rfl | rfl <;> decide

theorem EndsWord.on_line (h : EndsWord (left ++ more)) : EndsWord left := by
  intro x hx
  have hstart : left.takeWhile isWordChar <+: (left ++ more).takeWhile isWordChar := by
    rw [List.takeWhile_append]
    split
    · exact (List.takeWhile_prefix _).trans (List.prefix_append left _)
    · exact List.prefix_refl _
  exact h x (hstart.subset hx)

/-- Where blanks stand a word ends. -/
theorem Gap.endsWord_of_ne_nil (g : Gap) (hne : g.text ≠ []) (after : List Char) :
    EndsWord (g.text ++ after) := by
  refine endsWord_of_head? fun x hx => ?_
  obtain ⟨y, gap, hy⟩ := List.exists_cons_of_ne_nil hne
  obtain rfl : y = x := by simpa [hy] using hx
  exact isWordChar_of_isBlank (g.blanks y (by simp [hy]))

/-- The attributes of a tag end a word as what comes after them does. -/
theorem endsWord_attributes (attributes : List Attribute) (h : EndsWord after) :
    EndsWord (attributes.flatMap Attribute.text ++ after) := by
  cases attributes with
  | nil => exact h
  | cons a attributes =>
    rw [List.flatMap_cons, Attribute.text, List.append_assoc]
    rw [List.append_assoc]
    exact a.gap.endsWord_of_ne_nil a.separated _

theorem Gap.endsWord_append (g : Gap) (h : EndsWord after) : EndsWord (g.text ++ after) := by
  by_cases hne : g.text = []
  · rwa [hne, List.nil_append]
  · exact g.endsWord_of_ne_nil hne after

/-- The end of a tag is met: it ends a word, and it does not begin with a
blank. -/
def MeetsTagEnd (text : List Char) : Prop := EndsWord text ∧ ∀ x ∈ text.head?, isBlank x = false

theorem meetsTagEnd_append (selfClosed : Bool) (after : List Char) :
    MeetsTagEnd (tagEnd selfClosed ++ after) := by
  have hslash : isWordChar '/' = true := by decide
  have hend : isWordChar '>' = false := by decide
  cases selfClosed with
  | true =>
    constructor
    · intro x hx
      simpa [tagEnd, hslash, hend] using hx
    · simp [tagEnd]
      decide
  | false =>
    constructor
    · intro x hx
      simp [tagEnd, hend] at hx
    · simp [tagEnd]
      decide

/-! ## The states that they carry -/

/-- No error. -/
def NoError (style : Option Style) : Prop := style ≠ some .error

/-- The state is in a zone at a stage inside the elements, whatever name of a
tag it holds. -/
structure State.Inside (zone : Zone) (stage : Stage) (context : List Element) (s : State) :
    Prop where
  zone : s.zone = zone
  stage : s.stage = stage
  context : s.context = context

/-- And the tag being read has the name. -/
structure State.InsideTag (zone : Zone) (stage : Stage) (name : String) (context : List Element)
    (s : State) : Prop extends s.Inside zone stage context where
  tagName : s.tagName = some name

/-- A stage at which an attribute may begin or the tag end. -/
def Stage.BetweenAttributes : Stage → Prop
  | .attributes | .afterAttribute | .afterValue => True
  | .base | .tagName | .closeName | .closing | .closingError | .value => False

/-- The state is at such a stage of the opening tag with the name. -/
structure State.Between (name : String) (context : List Element) (s : State) : Prop where
  zone : s.zone = .tag
  stage : s.stage.BetweenAttributes
  tagName : s.tagName = some name
  context : s.context = context

theorem State.InsideTag.between (h : s.InsideTag .tag stage name context)
    (hstage : stage.BetweenAttributes) : s.Between name context :=
  ⟨h.zone, h.stage ▸ hstage, h.tagName, h.context⟩

/-- What the state at a token, and blanks, leave alone. -/
def Lasts (P : State → Prop) : Prop := ∀ c s, P s → P (Setup.enter c s)

theorem lasts_inside : Lasts (State.Inside zone stage context) :=
  fun _ _ h => ⟨h.zone, h.stage, h.context⟩

theorem lasts_insideTag : Lasts (State.InsideTag zone stage name context) :=
  fun c s h => ⟨lasts_inside c s h.toInside, h.tagName⟩

theorem lasts_between : Lasts (State.Between name context) :=
  fun _ _ h => ⟨h.zone, h.stage, h.tagName, h.context⟩

/-! ## One call each -/

namespace Setup

variable (m : Setup) {P Q : State → Prop} {text : List Char} {stop : List Char → Prop}

/-- Blanks are carried over where they come first. -/
theorem callTakes_blanks {p : Option Style → Prop} (hp : p none) (hP : Lasts P) (hs : P s)
    (hblank : ∃ x ∈ c.rest.head?, isBlank x = true) :
    m.tokenizer.CallTakes p c s (c.rest.takeWhile isBlank) P := by
  obtain ⟨x, hpeek, hx⟩ := hblank
  have htoken : m.tokenizer.token c s = ⟨none, c.skip isBlank, enter c s⟩ :=
    m.token_of_blank hpeek hx
  constructor
  · rw [htoken]
    exact took_skip isBlank c
  · rw [htoken]
    exact hp
  · rw [htoken]
    exact hP c s hs

/-- **Blanks** change nothing. -/
theorem carries_gap (hP : Lasts P) (g : Gap) :
    m.tokenizer.Carries NoError P g.text (fun after => ∀ x ∈ after.head?, isBlank x = false) P := by
  refine .of_run (fun c s hs _ hblank => ⟨c.rest.takeWhile isBlank, ?_, ?_, ?_⟩) g.blanks
  · obtain ⟨x, hpeek, hx⟩ := hblank
    intro hnil
    cases hrest : c.rest with
    | nil => simp [hrest] at hpeek
    | cons y rest =>
      obtain rfl : y = x := by simpa [hrest] using hpeek
      simp [hrest, hx] at hnil
  · exact fun x hx => List.mem_takeWhile_imp hx
  · exact m.callTakes_blanks (by simp [NoError]) hP hs hblank

/-- **A piece that is a lexeme** of a tag. -/
theorem carries_lexeme (hne : text ≠ []) (hfeed : '\n' ∉ text)
    (hstop : ∀ left more, stop (left ++ more) → stop left) (hP : Lasts P)
    (h : ∀ (c : Cursor) (s : State) (left : List Char), P s → c.token = [] →
      c.rest = text ++ left → stop left → ∃ style l d s', c.readBlanks? = none ∧ c.Took text d ∧
        readPiece c s = ⟨style, some l, d, s'⟩ ∧ NoError ((m.flavour.step l d s').2 <|> style) ∧
        Q (m.flavour.step l d s').1) :
    m.tokenizer.Carries NoError P text stop Q := by
  refine .of_call hne hfeed hstop fun c s left hs hc hrest hleft => ?_
  obtain ⟨style, l, d, s', hblanks, htook, hpiece, hstyle, hQ⟩ :=
    h c (enter c s) left (hP c s hs) hc hrest hleft
  have htoken : m.tokenizer.token c s = _ := m.token_of_lexeme hblanks hpiece
  exact ⟨by rw [htoken]; exact htook, by rw [htoken]; exact hstyle, by rw [htoken]; exact hQ⟩

/-- **A word** of a tag. -/
theorem carries_word (w : Word) (hP : Lasts P) (hzone : ∀ s, P s → s.zone = .tag)
    (hstep : ∀ c s, P s → c.token = w.text →
      NoError (m.flavour.step .word c s).2 ∧ Q (m.flavour.step .word c s).1) :
    m.tokenizer.Carries NoError P w.text EndsWord Q := by
  refine m.carries_lexeme w.nonempty w.no_feed (fun _ _ => EndsWord.on_line) hP ?_
  intro c s left hs hc hrest hleft
  obtain ⟨d, hblanks, htook, htoken, hpiece⟩ :=
    readPiece_of_word (hzone s hs) hc hrest w.nonempty w.chars hleft
  obtain ⟨hstyle, hQ⟩ := hstep d s hs htoken
  exact ⟨_, _, d, s, hblanks, htook, hpiece, by simpa using hstyle, hQ⟩

/-- The delimiter of an opening tag, before a name. -/
theorem carries_openDelimiter :
    m.tokenizer.Carries NoError (State.Inside .text .base context) ['<']
      (fun after => ∀ x ∈ after.head?, x ≠ '!' ∧ x ≠ '?' ∧ x ≠ '/')
      (State.Inside .tag .tagName context) := by
  refine m.carries_lexeme (by simp) (by decide) ?_ lasts_inside ?_
  · intro left more h x hx
    exact h x (by
      obtain ⟨tail, rfl⟩ := List.head?_eq_some_iff.mp hx
      simp)
  · intro c s left hs _ hrest hleft
    obtain ⟨hblanks, htook, hpiece⟩ := readPiece_of_openTag hs.zone hrest hleft
    refine ⟨_, _, _, _, hblanks, htook, hpiece, ?_⟩
    simp only [Flavour.step, hs.stage]
    exact ⟨by simp [NoError], rfl, rfl, hs.context⟩

/-- The equals sign after the name of an attribute. -/
theorem carries_equals :
    m.tokenizer.Carries NoError (State.InsideTag .tag .afterAttribute name context) ['=']
      (fun _ => True) (State.InsideTag .tag .value name context) := by
  refine m.carries_lexeme (by simp) (by decide) (by simp) lasts_insideTag ?_
  intro c s left hs _ hrest _
  have hpeek : c.peek? = some '=' := by simp [peek?, hrest]
  have hpiece : readPiece c s = ⟨none, some .equals, c.read 1, s⟩ := by
    simp [readPiece, hs.zone, inTag, next?, hpeek]
  refine ⟨_, _, _, _, readBlanks?_of_peek? hpeek (by decide), took_read_one hpeek, hpiece, ?_⟩
  simp only [Flavour.step, hs.stage, if_true]
  exact ⟨by simp [NoError], ⟨hs.zone, rfl, hs.context⟩, hs.tagName⟩

/-- The delimiter of a closing tag. -/
theorem carries_closeDelimiter :
    m.tokenizer.Carries NoError (State.Inside .text .base context) ['<', '/'] (fun _ => True)
      (State.Inside .tag .closeName context) := by
  refine m.carries_lexeme (by simp) (by decide) (by simp) lasts_inside ?_
  intro c s left hs _ hrest _
  obtain ⟨hblanks, htook, hpiece⟩ := readPiece_of_closeTag hs.zone hrest
  refine ⟨_, _, _, _, hblanks, htook, hpiece, ?_⟩
  simp only [Flavour.step, hs.stage]
  exact ⟨by simp [NoError], rfl, rfl, hs.context⟩

/-- The name of a closing tag that fits the innermost element. -/
theorem carries_closeName (w : Word) (hname : m.flavour.elementName w.text = top.name) :
    m.tokenizer.Carries NoError (State.Inside .tag .closeName (top :: context)) w.text EndsWord
      (State.Inside .tag .closing (top :: context)) := by
  refine m.carries_word w lasts_inside (fun _ hs => hs.zone) fun c s hs htoken => ?_
  have himplied : m.flavour.afterImplied top.name (top :: context) = top :: context := by
    simp [Flavour.afterImplied]
  have hfits : m.flavour.fitsClosing top.name (top :: context) = true := by
    simp [Flavour.fitsClosing, himplied]
  simp only [Flavour.step, hs.stage, if_true, htoken, hname, Flavour.stepCloseName_eq, hs.context,
    himplied, hfits]
  exact ⟨by simp [NoError, closingStyle], hs.zone, rfl, rfl⟩

/-- The end of a closing tag. -/
theorem carries_closeEnd :
    m.tokenizer.Carries NoError (State.Inside .tag .closing (top :: context)) ['>'] (fun _ => True)
      (State.Inside .text .base context) := by
  refine m.carries_lexeme (by simp) (by decide) (by simp) lasts_inside ?_
  intro c s left hs _ hrest _
  have hpeek : c.peek? = some '>' := by simp [peek?, hrest]
  refine ⟨_, _, _, _, readBlanks?_of_endTag hpeek, took_read_one hpeek,
    readPiece_of_endTag hs.zone hpeek, ?_⟩
  simp only [Flavour.step, hs.stage, stepClose, if_true]
  exact ⟨by simp [NoError], rfl, rfl, congrArg List.tail hs.context⟩

/-- **A closing tag** closes the innermost element if it has the name. -/
theorem carries_closingTag (hflavour : m.flavour = .html) (t : ClosingTag top.name) :
    m.tokenizer.Carries NoError (State.Inside .text .base (top :: context)) t.text (fun _ => True)
      (State.Inside .text .base context) := by
  have hname : m.flavour.elementName t.word.text = top.name := by rw [hflavour, t.fits]
  refine m.carries_closeDelimiter.seq ((m.carries_closeName t.word hname).seq
    ((m.carries_gap lasts_inside t.gap).seq m.carries_closeEnd ?_) ?_) (by simp)
  · intro after _
    simp
    decide
  · intro after _
    rw [List.append_assoc]
    exact endsWord_of_head? (t.gap.head?_append (fun _ => isWordChar_of_isBlank) (by decide) after)

/-! ## Text and comments -/

/-- The call that reads a piece of no tag. -/
theorem token_of_aside {style : Option Style} {d : Cursor} {p : State}
    (hblanks : c.readBlanks? = none) (hpiece : readPiece c (enter c s) = ⟨style, none, d, p⟩) :
    m.tokenizer.token c s = ⟨style, d, p⟩ := by
  change m.token c s = _
  simp only [token, hblanks, hpiece]

/-- **Plain text** changes nothing. -/
theorem carries_plain (t : PlainText) :
    m.tokenizer.Carries NoError (State.Inside .text .base context) t.text
      (fun after => ∀ x ∈ after.head?, isPlain x = false) (State.Inside .text .base context) := by
  refine .of_run (fun c s hs hc hplain => ?_) t.plain
  obtain ⟨x, hpeek, hx⟩ := hplain
  obtain ⟨rest, hrest⟩ := List.head?_eq_some_iff.mp hpeek
  cases hblank : isBlank x with
  | true =>
    -- blanks are read without the text after them
    refine ⟨c.rest.takeWhile isBlank, by simp [hrest, hblank], fun y hy => ?_,
      m.callTakes_blanks (by simp [NoError]) lasts_inside hs ⟨x, hpeek, hblank⟩⟩
    have hy := List.mem_takeWhile_imp hy
    simp only [isPlain, Bool.and_eq_true, bne_iff_ne]
    constructor <;> rintro rfl <;> revert hy <;> decide
  | false =>
    have hcut := took_read_one hpeek
    have hskip := took_skip isPlain (c.read 1)
    have hpiece : readPiece c (enter c s) =
        ⟨none, none, (c.read 1).skip isPlain, enter c s⟩ := by
      simp only [isPlain, Bool.and_eq_true, bne_iff_ne, ne_eq] at hx
      obtain ⟨hamp, hlt⟩ := hx
      have hnext : c.next? = some (x, c.read 1) := by simp [next?, peek?, hrest]
      simp only [readPiece, (lasts_inside c s hs).zone, inText, hnext]
      rfl
    have htoken := m.token_of_aside (readBlanks?_of_peek? hpeek hblank) hpiece
    refine ⟨[x] ++ (c.read 1).rest.takeWhile isPlain, by simp, ?_, ?_, ?_, ?_⟩
    · intro y hy
      rcases List.mem_append.mp hy with hfirst | hlater
      · obtain rfl := List.mem_singleton.mp hfirst
        exact hx
      · exact List.mem_takeWhile_imp hlater
    · rw [htoken]
      exact hcut.trans hskip
    · rw [htoken]
      simp [NoError]
    · rw [htoken]
      exact lasts_inside c s hs

theorem isEndMark_terminator (v : Verbatim) : Scan.IsEndMark v.terminator := by
  cases v with
  | comment => exact ⟨⟨['-', '-'], '>', by decide, by decide⟩, by decide⟩
  | cdata => exact ⟨⟨[']', ']'], '>', by decide, by decide⟩, by decide⟩
  | instruction => exact ⟨⟨['?'], '>', by decide, by decide⟩, by decide⟩

/-- What begins with `<!` is read on as a declaration. -/
theorem readPiece_declaration {rest : List Char} (hzone : s.zone = .text)
    (hrest : c.rest = '<' :: '!' :: rest) :
    c.Took ['<', '!'] ((c.read 1).read 1) ∧ ((c.read 1).read 1).rest = rest ∧
      readPiece c s = inDeclaration ((c.read 1).read 1) s := by
  have hdelimiter : c.peek? = some '<' := by simp [peek?, hrest]
  have hbang : (c.read 1).peek? = some '!' := by simp [peek?, Cursor.read, hrest]
  have hnext : c.next? = some ('<', c.read 1) := by rw [next?, hdelimiter, Option.map_some]
  have hdeclares : (c.read 1).readChar? '!' = some ((c.read 1).read 1) := by
    simp [readChar?, readIf?, hbang]
  refine ⟨(took_read_one hdelimiter).trans (took_read_one hbang), by simp [Cursor.read, hrest], ?_⟩
  simp only [readPiece, hzone, inText, hnext, inDelimiter, hdeclares]

/-- A literal that is ahead is read. -/
theorem readLiteral?_append {literal rest : List Char} (hrest : c.rest = literal ++ rest) :
    c.readLiteral? literal = some (c.read literal.length) ∧
      c.Took literal (c.read literal.length) ∧ (c.read literal.length).rest = rest := by
  have htook := took_read literal.length c
  rw [hrest, List.take_left] at htook
  refine ⟨?_, htook, by simp [Cursor.read, hrest]⟩
  rw [readLiteral?, if_pos]
  rw [List.isPrefixOf_iff_prefix, hrest]
  exact List.prefix_append literal rest

/-- The opener of a verbatim construct is read as one piece with what is
scanned after it. -/
theorem readPiece_opener (v : Verbatim) {rest : List Char} (hzone : s.zone = .text)
    (hrest : c.rest = v.opener ++ rest) :
    ∃ d, c.Took v.opener d ∧ d.rest = rest ∧ readPiece c s = inVerbatim v d s := by
  cases v with
  | comment =>
    have hopener : Verbatim.comment.opener = '<' :: '!' :: "--".toList := by decide
    rw [hopener, List.cons_append, List.cons_append] at hrest
    obtain ⟨htook, hleft, hpiece⟩ := readPiece_declaration hzone hrest
    obtain ⟨hliteral, htook', hleft'⟩ := readLiteral?_append hleft
    have hnobracket : ((c.read 1).read 1).readChar? '[' = none := by
      simp [readChar?, readIf?, peek?, hleft]
    rw [hopener]
    refine ⟨_, htook.trans htook', hleft', ?_⟩
    simp only [hpiece, inDeclaration, hnobracket, hliteral]
  | cdata =>
    have hopener : Verbatim.cdata.opener = '<' :: '!' :: '[' :: "CDATA[".toList := by decide
    rw [hopener, List.cons_append, List.cons_append, List.cons_append] at hrest
    obtain ⟨htook, hleft, hpiece⟩ := readPiece_declaration hzone hrest
    have hpeek : ((c.read 1).read 1).peek? = some '[' := by simp [peek?, hleft]
    have hbracket : ((c.read 1).read 1).readChar? '[' = some (((c.read 1).read 1).read 1) := by
      simp [readChar?, readIf?, hpeek]
    have hleft' : (((c.read 1).read 1).read 1).rest = "CDATA[".toList ++ rest :=
      (took_read_one hpeek).rest_eq hleft
    obtain ⟨hliteral, htook', hleft''⟩ := readLiteral?_append hleft'
    rw [hopener]
    refine ⟨_, htook.trans ((took_read_one hpeek).trans htook'), hleft'', ?_⟩
    simp only [hpiece, inDeclaration, hbracket, hliteral]
  | instruction =>
    have hopener : Verbatim.instruction.opener = ['<', '?'] := by decide
    rw [hopener] at hrest ⊢
    have hdelimiter : c.peek? = some '<' := by simp [peek?, hrest]
    have hmark : (c.read 1).peek? = some '?' := by simp [peek?, Cursor.read, hrest]
    have hnext : c.next? = some ('<', c.read 1) := by rw [next?, hdelimiter, Option.map_some]
    have hnobang : (c.read 1).readChar? '!' = none := by simp [readChar?, readIf?, hmark]
    have hinstructs : (c.read 1).readChar? '?' = some ((c.read 1).read 1) := by
      simp [readChar?, readIf?, hmark]
    refine ⟨(c.read 1).read 1, (took_read_one hdelimiter).trans (took_read_one hmark), ?_, ?_⟩
    · simp [Cursor.read, hrest]
    · simp only [readPiece, hzone, inText, hnext, inDelimiter, hnobang, hinstructs]

/-- A call that scans for the end of a verbatim construct. -/
theorem callScans_verbatim (v : Verbatim) {p : Option Style → Prop} {R : State → Prop}
    {opener : List Char} {d : Cursor} (hp : p (some v.style)) (hblanks : c.readBlanks? = none)
    (htook : c.Took opener d) (hpiece : readPiece c (enter c s) = inVerbatim v d (enter c s))
    (hR : R { enter c s with zone := .verbatim v }) (hQ : Q { enter c s with zone := .text }) :
    m.tokenizer.CallScans p v.terminator R Q c s opener d.rest := by
  have htoken := m.token_of_aside hblanks hpiece
  refine ⟨?_, ?_, ?_⟩
  · rw [htoken]
    exact htook.trans (took_read _ d)
  · rw [htoken]
    exact hp
  · rw [htoken]
    cases (Scan.through v.terminator d.rest).closed with
    | true => exact hQ
    | false => exact hR

/-- **A comment** changes nothing. -/
theorem carries_comment (t : CommentText) :
    m.tokenizer.Carries NoError (State.Inside .text .base context)
      ("<!--".toList ++ (t.text ++ "-->".toList)) (fun _ => True)
      (State.Inside .text .base context) := by
  have hscans {c : Cursor} {s : State} {opener : List Char} {d : Cursor} {zone : Zone}
      (hs : s.Inside zone .base context) (hblanks : c.readBlanks? = none)
      (htook : c.Took opener d)
      (hpiece : readPiece c (enter c s) = inVerbatim .comment d (enter c s)) :
      m.tokenizer.CallScans NoError Verbatim.comment.terminator
        (State.Inside (.verbatim .comment) .base context) (State.Inside .text .base context) c s
        opener d.rest :=
    m.callScans_verbatim .comment (by simp [NoError, Verbatim.style]) hblanks htook hpiece
      ⟨rfl, hs.stage, hs.context⟩ ⟨rfl, hs.stage, hs.context⟩
  refine .of_opener (R := State.Inside (.verbatim .comment) .base context)
    (isEndMark_terminator .comment) (by simp) (by decide) ?_ (fun body hfree => ?_) t.free
  · intro c s rest hs _ hrest
    obtain ⟨d, htook, rfl, hpiece⟩ := readPiece_opener .comment (lasts_inside c s hs).zone hrest
    have hpeek : c.peek? = some '<' := by simp [peek?, hrest]
    exact hscans hs (readBlanks?_of_peek? hpeek (by decide)) htook hpiece
  · refine .of_mark (isEndMark_terminator .comment)
      (fun c s hs _ hblank => m.callTakes_blanks (by simp [NoError]) lasts_inside hs hblank)
      (fun c s hs _ hrest => ?_) hfree
    obtain ⟨x, hpeek, hx⟩ := hrest
    have hpiece : readPiece c (enter c s) = inVerbatim .comment c (enter c s) := by
      simp only [readPiece, (lasts_inside c s hs).zone]
    exact hscans hs (readBlanks?_of_peek? hpeek hx) (.refl c) hpiece

/-! ## Opening tags -/

theorem isEndMark_quote {quote : Char} (h : quote = '\x22' ∨ quote = '\x27') :
    Scan.IsEndMark [quote] where
  split := ⟨[], quote, rfl, by simp⟩
  blanks := by rcases h with rfl | rfl <;> decide

/-- The quote before a value is read as one piece with what is scanned after
it. -/
theorem readPiece_quote {quote : Char} (hquote : quote = '\x22' ∨ quote = '\x27')
    (hzone : s.zone = .tag) (hpeek : c.peek? = some quote) :
    readPiece c s = inValue quote (c.read 1) { s with valueColumn := (c.read 1).column } := by
  rcases hquote with rfl | rfl <;> simp [readPiece, hzone, inTag, next?, hpeek]

/-- A call that scans for the quote that ends a value. -/
theorem callScans_value {p : Option Style → Prop} {R : State → Prop} {quote : Char}
    {opener : List Char} {d : Cursor} {s' : State} (hp : p (some .string))
    (hblanks : c.readBlanks? = none) (htook : c.Took opener d)
    (hpiece : readPiece c (enter c s) = inValue quote d s')
    (hstage : s'.stage = .value ∨ s'.stage = .afterValue)
    (hR : R { s' with zone := .value quote, stage := .afterValue })
    (hQ : Q { s' with zone := .tag, stage := .afterValue }) :
    m.tokenizer.CallScans p [quote] R Q c s opener d.rest := by
  have htoken : m.tokenizer.token c s = _ := m.token_of_lexeme hblanks hpiece
  have hstep : ∀ (e : Cursor) (zone : Zone), m.flavour.step .quoted e { s' with zone := zone } =
      ({ s' with zone := zone, stage := .afterValue }, none) := by
    intro e zone
    rcases hstage with hstage | hstage
    · simp [Flavour.step, hstage]
    · simp only [Flavour.step, hstage, if_true]
  refine ⟨?_, ?_, ?_⟩
  · rw [htoken]
    exact htook.trans (took_read _ d)
  · rw [htoken, hstep]
    exact hp
  · rw [htoken, hstep]
    cases (Scan.through [quote] d.rest).closed with
    | true => exact hQ
    | false => exact hR

/-- **A value between quotes.** -/
theorem carries_quoted {quote : Char} (hquote : quote = '\x22' ∨ quote = '\x27')
    {content : List Char} (hfree : quote ∉ content) :
    m.tokenizer.Carries NoError (State.InsideTag .tag .value name context)
      ([quote] ++ (content ++ [quote])) (fun _ => True)
      (State.InsideTag .tag .afterValue name context) := by
  have hblank : isBlank quote = false := (isEndMark_quote hquote).blanks quote (by simp)
  have hfeed : '\n' ∉ [quote] := by rcases hquote with rfl | rfl <;> decide
  refine .of_opener (R := State.InsideTag (.value quote) .afterValue name context)
    (isEndMark_quote hquote) (by simp) hfeed ?_ (fun body hfree => ?_)
    (fun hin => hfree (hin.subset (by simp)))
  · intro c s rest hs _ hrest
    have hpeek : c.peek? = some quote := by simp [peek?, hrest]
    have hleft : (c.read 1).rest = rest := by simp [Cursor.read, hrest]
    rw [← hleft]
    exact m.callScans_value (by simp [NoError]) (readBlanks?_of_peek? hpeek hblank)
      (took_read_one hpeek) (readPiece_quote hquote (lasts_insideTag c s hs).zone hpeek)
      (.inl hs.stage) ⟨⟨rfl, rfl, hs.context⟩, hs.tagName⟩ ⟨⟨rfl, rfl, hs.context⟩, hs.tagName⟩
  · refine .of_mark (isEndMark_quote hquote)
      (fun c s hs _ hblank => m.callTakes_blanks (by simp [NoError]) lasts_insideTag hs hblank)
      (fun c s hs _ hrest => ?_) hfree
    obtain ⟨x, hpeek, hx⟩ := hrest
    have hpiece : readPiece c (enter c s) = inValue quote c (enter c s) := by
      simp only [readPiece, (lasts_insideTag c s hs).zone]
    exact m.callScans_value (by simp [NoError]) (readBlanks?_of_peek? hpeek hx) (.refl c) hpiece
      (.inr hs.stage) ⟨⟨rfl, rfl, hs.context⟩, hs.tagName⟩ ⟨⟨rfl, rfl, hs.context⟩, hs.tagName⟩

section Html

variable (hflavour : m.flavour = .html)
include hflavour

/-- **A value**, with quotes or without. -/
theorem carries_value (v : AttributeValue) :
    m.tokenizer.Carries NoError (State.InsideTag .tag .value name context) v.text EndsWord
      (State.Between name context) := by
  cases v with
  | quoted quote content hquote hfree =>
    exact (m.carries_quoted hquote hfree).mono (fun _ hs => hs)
      (fun _ hs => hs.between trivial) (fun _ _ => trivial)
  | unquoted word =>
    refine m.carries_word word lasts_insideTag (fun _ hs => hs.zone) fun c s hs _ => ?_
    simp only [Flavour.step, hs.stage, hflavour, reduceCtorEq, if_false, and_self, if_true]
    exact ⟨by simp [NoError], hs.zone, trivial, hs.tagName, hs.context⟩

/-- Between attributes a lexeme is read as where one may stand, unless it
belongs to the attribute before. -/
theorem step_of_between (hstage : s.stage.BetweenAttributes) {l : Lexeme} (hequals : l ≠ .equals)
    (hquoted : l ≠ .quoted) : m.flavour.step l c s = m.flavour.stepAttribute l s := by
  cases hs : s.stage with
  | attributes => simp only [Flavour.step, hs]
  | afterAttribute => simp [Flavour.step, hs, hequals, hflavour]
  | afterValue => simp [Flavour.step, hs, hquoted]
  | base | tagName | closeName | closing | closingError | value =>
    rw [hs] at hstage
    exact hstage.elim

/-- The name of an attribute. -/
theorem carries_attributeName (w : Word) :
    m.tokenizer.Carries NoError (State.Between name context) w.text EndsWord
      (State.InsideTag .tag .afterAttribute name context) := by
  refine m.carries_word w lasts_between (fun _ hs => hs.zone) fun c s hs _ => ?_
  rw [m.step_of_between hflavour hs.stage (by simp) (by simp)]
  exact ⟨by simp [Flavour.stepAttribute, NoError], ⟨hs.zone, rfl, hs.context⟩, hs.tagName⟩

/-- **An attribute.** -/
theorem carries_attribute (a : Attribute) :
    m.tokenizer.Carries NoError (State.Between name context) a.text EndsWord
      (State.Between name context) := by
  obtain ⟨gap, hseparated, word, value⟩ := a
  have hvalue : m.tokenizer.Carries NoError (State.InsideTag .tag .afterAttribute name context)
      (Attribute.valueText value) EndsWord (State.Between name context) := by
    cases value with
    | none =>
      exact (Tokenizer.Carries.nil _).mono (fun _ hs => hs)
        (fun _ hs => hs.between trivial) (fun _ h => h)
    | some parts =>
      obtain ⟨gap', gap'', value⟩ := parts
      refine (m.carries_gap lasts_insideTag gap').seq (m.carries_equals.seq
        ((m.carries_gap lasts_insideTag gap'').seq (m.carries_value hflavour value)
          fun after _ => value.head?_append after) (by simp)) ?_
      intro after _
      simp
      decide
  refine (m.carries_gap lasts_between gap).seq
    ((m.carries_attributeName hflavour word).seq hvalue ?_) ?_
  · intro after hafter
    cases value with
    | none => exact hafter
    | some parts =>
      obtain ⟨gap', gap'', value⟩ := parts
      simp only [Attribute.valueText, List.append_assoc]
      exact endsWord_of_head? (gap'.head?_append (fun _ => isWordChar_of_isBlank) (by decide) _)
  · intro after _
    rw [List.append_assoc]
    exact word.head?_append _

/-- **The attributes** of a tag. -/
theorem carries_attributes (attributes : List Attribute) :
    m.tokenizer.Carries NoError (State.Between name context)
      (attributes.flatMap Attribute.text) EndsWord (State.Between name context) := by
  induction attributes with
  | nil => exact .nil _
  | cons a attributes ih =>
    rw [List.flatMap_cons]
    exact (m.carries_attribute hflavour a).seq ih fun after hafter =>
      endsWord_attributes attributes hafter

/-- **An opening tag** up to its end. -/
theorem carries_openingTag (t : OpeningTag) :
    m.tokenizer.Carries NoError (State.Inside .text .base context) t.text MeetsTagEnd
      (State.Between t.name context) := by
  have hname : m.tokenizer.Carries NoError (State.Inside .tag .tagName context) t.word.text
      EndsWord (State.Between t.name context) := by
    refine m.carries_word t.word.toWord lasts_inside (fun _ hs => hs.zone) fun c s hs htoken => ?_
    simp only [Flavour.step, hs.stage, if_true, htoken, hflavour]
    exact ⟨by simp [NoError], hs.zone, trivial, rfl, hs.context⟩
  have hgap : m.tokenizer.Carries NoError (State.Between t.name context) t.gap.text MeetsTagEnd
      (State.Between t.name context) :=
    (m.carries_gap lasts_between t.gap).mono (fun _ hs => hs) (fun _ hs => hs) fun _ h => h.2
  refine m.carries_openDelimiter.seq
    (hname.seq ((m.carries_attributes hflavour t.attributes).seq hgap ?_) ?_) ?_
  · exact fun after hafter => t.gap.endsWord_append hafter.1
  · intro after hafter
    rw [List.append_assoc]
    exact endsWord_attributes t.attributes (t.gap.endsWord_append hafter.1)
  · intro after _ x hx
    obtain ⟨y, text, hy⟩ := List.exists_cons_of_ne_nil t.word.nonempty
    have hplain := t.word.plain y (by simp [hy])
    have hslash := (t.word.chars y (by simp [hy])).2
    obtain rfl : y = x := by simpa [hy] using hx
    exact ⟨hplain.1, hplain.2, hslash⟩

/-- **The end of an opening tag** opens the element, unless that has no body
or is closed by the tag itself. -/
theorem carries_tagEnd (selfClosed : Bool) :
    m.tokenizer.Carries NoError (State.Between name context) (tagEnd selfClosed) (fun _ => True)
      (fun s => ∃ indent startsLine, s.Inside .text .base
        (if selfClosed || Flavour.html.isVoid name then Flavour.html.afterGrabs name context
        else Flavour.html.opened name indent startsLine context)) := by
  have hfinish : ∀ s : State, s.Between name context →
      ∃ indent startsLine, State.Inside .text .base
        (if selfClosed || Flavour.html.isVoid name then Flavour.html.afterGrabs name context
        else Flavour.html.opened name indent startsLine context)
        (m.flavour.finishOpening selfClosed { s with zone := .text }) := by
    intro s hs
    refine ⟨s.lineIndent, s.tagColumn == s.lineIndent, by simp, by simp, ?_⟩
    rw [Flavour.context_finishOpening, hflavour]
    simp [hs.tagName, hs.context]
  refine m.carries_lexeme (by cases selfClosed <;> simp [tagEnd])
    (by cases selfClosed <;> decide) (by simp) lasts_between ?_
  intro c s left hs _ hrest _
  cases selfClosed with
  | false =>
    have hpeek : c.peek? = some '>' := by simp [peek?, hrest, tagEnd]
    refine ⟨_, _, _, _, readBlanks?_of_endTag hpeek, took_read_one hpeek,
      readPiece_of_endTag hs.zone hpeek, ?_⟩
    rw [m.step_of_between hflavour (s := { s with zone := .text }) hs.stage (by simp) (by simp)]
    exact ⟨by simp [Flavour.stepAttribute, NoError], hfinish s hs⟩
  | true =>
    have hpeek : c.peek? = some '/' := by simp [peek?, hrest, tagEnd]
    have hpeek' : (c.read 1).peek? = some '>' := by simp [peek?, Cursor.read, hrest, tagEnd]
    have hpiece : readPiece c s =
        ⟨some .tag, some .selfClose, (c.read 1).read 1, { s with zone := .text }⟩ := by
      simp [readPiece, hs.zone, inTag, next?, hpeek, hpeek']
    refine ⟨_, _, _, _, readBlanks?_of_peek? hpeek (by decide),
      (took_read_one hpeek).trans (took_read_one hpeek'), hpiece, ?_⟩
    rw [m.step_of_between hflavour (s := { s with zone := .text }) hs.stage (by simp) (by simp)]
    exact ⟨by simp [Flavour.stepAttribute, NoError], hfinish s hs⟩

end Html

end Setup

end Markup

end MixedMarkup
