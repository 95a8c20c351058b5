import MixedMarkup.Proofs.ParkedHost
import MixedMarkup.Proofs.Erasure
/-!
# Mixed documents — how a region is left

The tag that ends a region is found by one reading of the text and read by
another: the composite looks for it in any case, with blanks before and
after the name, and the host then reads it piece by piece. Here is the
second reading. A closing tag is a delimiter, a name and a `>`, with blanks
between them; each piece is one token, and none of them opens anything
(`Setup.yields_closing`). The name is a tag's if it fits the innermost element
and an error otherwise, but the `>` closes that element in either case. So
every spelling that the composite accepts takes the host back to where the
region's opening tag was met (`region_left_restores_context`).
-/

namespace MixedMarkup

open Cursor Text

/-! ## Spellings of a name -/

namespace Text

/-- A run of characters ends where the next one is not among them. -/
theorem takeWhile_eq_of_stop {p : Char → Bool} {text after : List Char}
    (htext : ∀ x ∈ text, p x = true) (hafter : ∀ x ∈ after.head?, p x = false) :
    (text ++ after).takeWhile p = text := by
  rw [List.takeWhile_append_of_pos htext]
  cases after with
  | nil => simp
  | cons y after => simp [hafter y rfl]

/-- No run of characters goes on over blanks, or over what ends them, where
it has neither. -/
theorem head?_of_blanks {p : Char → Bool} {last : Char} {gap after : List Char}
    (hgap : ∀ x ∈ gap, isBlank x = true) (hp : ∀ x, isBlank x = true → p x = false)
    (hlast : p last = false) : ∀ x ∈ (gap ++ last :: after).head?, p x = false := by
  intro x hx
  cases gap with
  | nil =>
    obtain rfl : last = x := by simpa using hx
    exact hlast
  | cons y gap =>
    obtain rfl : y = x := by simpa using hx
    exact hp y (hgap y (by simp))

/-- Above ASCII, the folding of a run stays there, but for the long s and
the Kelvin sign. -/
theorem foldRuns_image : ∀ r ∈ foldRuns,
    r.first = r.last ∧ (r.first = 0x17F ∨ r.first = 0x212A) ∨
      0x80 ≤ r.first + r.shift ∧ (r.last + r.shift < 0xD800 ∨
        0xDFFF < r.first + r.shift ∧ r.last + r.shift < 0x110000) := by
  decide +kernel

/-- The code points of the characters that fold to ASCII. -/
def asciiSources : List Nat := 0x17F :: 0x212A :: List.range 0x80

theorem mem_asciiSources {c : Char} (h : isAscii (foldCase c) = true) :
    c.toNat ∈ asciiSources := by
  by_cases hascii : isAscii c = true
  · simp [asciiSources, isAscii] at hascii ⊢
    omega
  · rw [foldCase, if_neg hascii] at h
    split at h
    · rename_i r hfind
      have hhas : r.has c.toNat = true := by simpa using List.find?_some hfind
      simp only [FoldRun.has, Bool.and_eq_true, decide_eq_true_eq] at hhas
      rcases foldRuns_image r (List.mem_of_find?_eq_some hfind) with ⟨hone, hfirst⟩ | ⟨hlow, hhigh⟩
      · simp only [asciiSources, List.mem_cons]
        omega
      · -- the folding is a character at the code point itself, which is no ASCII one
        have hvalid : (c.toNat + r.shift).toNat.isValidChar := by
          simp only [Nat.isValidChar]
          omega
        rw [Char.ofNat, dif_pos hvalid] at h
        have hlt : (c.toNat + r.shift).toNat < 0x80 := of_decide_eq_true h
        omega
    · exact absurd h hascii

end Text

namespace Mixed

namespace EmbeddingElement

variable {e : EmbeddingElement} {x : Char}

/-- What holds of the characters that fold to ASCII, if they fold to letters
of a name, holds of the letters of its spellings. -/
theorem of_spelling {p : Char → Prop} (h : foldCase x ∈ e.name.toList)
    (hall : ∀ n ∈ asciiSources, foldCase (Char.ofNat n) ∈ e.name.toList → p (Char.ofNat n)) :
    p x := by
  have hascii : e.name.toList.all isAscii = true := by cases e <;> decide
  have hx := hall x.toNat (mem_asciiSources (List.all_eq_true.mp hascii _ h))
  rw [Char.ofNat_toNat] at hx
  exact hx h

/-- A letter of a name, however it is spelled, may stand in a word of a
tag. -/
theorem isWordChar_of_spelling (h : foldCase x ∈ e.name.toList) :
    Markup.isWordChar x = true ∧ x ≠ '/' := by
  refine of_spelling (p := fun x => Markup.isWordChar x = true ∧ x ≠ '/') h ?_
  cases e <;> decide +kernel

/-- The elements with embedded bodies end by a closing tag only. -/
theorem endsItself_name (e : EmbeddingElement) :
    Markup.Flavour.html.endsItself e.name = false := by
  cases e <;> decide

end EmbeddingElement

end Mixed

/-! ## Tokens, and runs that make them -/

namespace Tokenizer

variable {σ : Type} (t : Tokenizer σ)

/-- The text that a call reads, and its style. -/
def tokenOf (k : Call σ) : List Char × Option Style := (t.textOf k, (t.stepOf k).style)

/-- Calls that lead from `c` in the state `s` to `d` in the state `s'` make
the tokens, and `p` holds of the state after each of them. -/
def Yields (p : σ → Prop) (c : Cursor) (s : σ) (tokens : List (List Char × Option Style))
    (d : Cursor) (s' : σ) : Prop :=
  ∃ calls, t.Run c s calls d s' ∧ calls.map t.tokenOf = tokens ∧
    ∀ k ∈ calls, p (t.stepOf k).state

namespace Yields

variable {t} {p : σ → Prop} {c d e : Cursor} {s s' s'' : σ}
variable {tokens more : List (List Char × Option Style)} {text : List Char}

theorem done (c : Cursor) (s : σ) : t.Yields p c s [] c s :=
  ⟨[], .done c s, rfl, by simp⟩

theorem call (hne : text ≠ []) (htook : c.beginToken.Took text (t.token c.beginToken s).cursor)
    (hp : p (t.token c.beginToken s).state) :
    t.Yields p c s [(text, (t.token c.beginToken s).style)] (t.token c.beginToken s).cursor
      (t.token c.beginToken s).state := by
  refine ⟨[⟨c.beginToken, s⟩], .single ⟨text, hne, htook⟩, ?_, by simpa [stepOf] using hp⟩
  have htext : t.textOf ⟨c.beginToken, s⟩ = text := htook.token
  simp only [List.map_cons, List.map_nil, tokenOf, htext]
  rfl

theorem mono {q : σ → Prop} (h : t.Yields p c s tokens d s') (hq : ∀ s, p s → q s) :
    t.Yields q c s tokens d s' := by
  obtain ⟨calls, hrun, htokens, hcalls⟩ := h
  exact ⟨calls, hrun, htokens, fun k hk => hq _ (hcalls k hk)⟩

theorem trans (h : t.Yields p c s tokens d s') (h' : t.Yields p d s' more e s'') :
    t.Yields p c s (tokens ++ more) e s'' := by
  obtain ⟨calls, hrun, rfl, hcalls⟩ := h
  obtain ⟨calls', hrun', rfl, hcalls'⟩ := h'
  refine ⟨calls ++ calls', hrun.append hrun', List.map_append, ?_⟩
  intro k hk
  rcases List.mem_append.mp hk with hk | hk
  · exact hcalls k hk
  · exact hcalls' k hk

/-- A run that makes tokens starts in every state in which the first call is
the same. -/
theorem of_token_eq (htoken : t.token c.beginToken s = t.token c.beginToken s'')
    (hne : tokens ≠ []) (h : t.Yields p c s'' tokens d s') : t.Yields p c s tokens d s' := by
  obtain ⟨calls, hrun, rfl, hcalls⟩ := h
  cases hrun with
  | done => exact absurd rfl hne
  | @call _ _ _ _ calls hadv hrun =>
    have hstep : t.stepOf ⟨c.beginToken, s⟩ = t.stepOf ⟨c.beginToken, s''⟩ := htoken
    refine ⟨⟨c.beginToken, s⟩ :: calls, .call (htoken ▸ hadv) (htoken ▸ hrun), ?_, ?_⟩
    · simp only [List.map_cons, tokenOf, textOf, hstep]
    · intro k hk
      rcases List.mem_cons.mp hk with rfl | hk
      · rw [hstep]
        exact hcalls _ (List.mem_cons_self ..)
      · exact hcalls k (List.mem_cons_of_mem _ hk)

end Yields

end Tokenizer

/-! ## The host on a closing tag -/

namespace Markup

variable {c d : Cursor} {s : State} {zone : Zone} {stage : Stage} {context : List Element}
variable {gap spelling gap' text after : List Char}

/-- The state is in a zone at a stage inside the elements, with no opening
tag being read. -/
structure State.Stands (s : State) (zone : Zone) (stage : Stage) (context : List Element) :
    Prop where
  zone : s.zone = zone
  stage : s.stage = stage
  tagName : s.tagName = none
  context : s.context = context

/-- The state at a token stands where the state before it does. -/
theorem State.Stands.enter (h : s.Stands zone stage context) (c : Cursor) :
    (Setup.enter c s).Stands zone stage context :=
  ⟨h.zone, h.stage, h.tagName, h.context⟩

section Parked

variable {element : String} {top : Element} {outer : List Element}

/-- A state parked in an element stands in text, and the element is on top
of the others. -/
theorem State.ParkedIn.stands (h : s.ParkedIn element) (hcontext : s.context = context) :
    s.Stands .text .base context :=
  ⟨h.zone, h.stage, h.tagName, hcontext⟩

theorem State.ParkedIn.name_of_context (h : s.ParkedIn element)
    (hcontext : s.context = top :: outer) : top.name = element := by
  simpa [State.openElement, hcontext] using h.innermost

theorem State.ParkedIn.exists_context (h : s.ParkedIn element) :
    ∃ top outer, s.context = top :: outer := by
  cases hcontext : s.context with
  | nil => simpa [State.openElement, hcontext] using h.innermost
  | cons top outer => exact ⟨top, outer, rfl⟩

end Parked

theorem isBlank_of_isWordChar {x : Char} (h : isWordChar x = true) : isBlank x = false := by
  simp only [isWordChar, Bool.and_eq_true, Bool.not_eq_true'] at h
  exact h.1.1.1.1.1

theorem isWordChar_of_isBlank {x : Char} (h : isBlank x = true) : isWordChar x = false := by
  simp [isWordChar, h]

/-- Where something else comes there are no blanks to read. -/
theorem readBlanks?_of_peek? {ch : Char} (hpeek : c.peek? = some ch) (h : isBlank ch = false) :
    c.readBlanks? = none := by
  simp [readBlanks?, readWhile?, readIf?, hpeek, h]

/-- The tokens of blanks: one at most. -/
def blankTokens (gap : List Char) : List (List Char × Option Style) :=
  if gap = [] then [] else [(gap, none)]

/-- The style of the name and of the end of a closing tag, whose name fits
the innermost element or does not. -/
def closingStyle (fits : Bool) : Style := if fits then .tag else .error

/-- The stage between them. -/
def closingStage (fits : Bool) : Stage := if fits then .closing else .closingError

/-- **The tokens of a closing tag.** -/
def closingTokens (gap spelling gap' : List Char) (fits : Bool) :
    List (List Char × Option Style) :=
  [(['<', '/'], some .tag)] ++ (blankTokens gap ++ ([(spelling, some (closingStyle fits))] ++
    (blankTokens gap' ++ [(['>'], some (closingStyle fits))])))

/-- Whether the name of a closing tag fits the innermost of the elements that
it finds. -/
def Flavour.fitsClosing (f : Flavour) (name : String) (context : List Element) : Bool :=
  (f.afterImplied name context).head?.any (·.name == name)

/-- The name of a closing tag fits the innermost element that it finds, or it
is an error; the tag's end is awaited in either case. -/
theorem Flavour.stepCloseName_eq (f : Flavour) (name : String) (s : State) :
    f.stepCloseName name s =
      ({ s with
          context := f.afterImplied name s.context
          stage := closingStage (f.fitsClosing name s.context) },
        some (closingStyle (f.fitsClosing name s.context))) := by
  have hfits : f.fitsClosing name s.context = true ↔
      State.openElement { s with context := f.afterImplied name s.context } = some name := by
    simp only [fitsClosing, State.openElement]
    cases (f.afterImplied name s.context).head? <;> simp
  simp only [stepCloseName]
  cases hopen : f.fitsClosing name s.context with
  | true => simp [hfits.mp hopen, closingStage, closingStyle]
  | false =>
    rw [← Bool.not_eq_true, hfits] at hopen
    simp [hopen, closingStage, closingStyle]

/-- No closing tag implies the end of an element that does not end by
itself. -/
theorem Flavour.afterImplied_of_not_endsItself (f : Flavour) {top : Element}
    (hself : f.endsItself top.name = false) (name : String) (outer : List Element) :
    f.afterImplied name (top :: outer) = top :: outer := by
  simp [afterImplied, hself]

/-- A word that stands before the text ends there: the text has no more
characters of words first than slashes, which a word gives back. -/
def EndsWord (text : List Char) : Prop := ∀ x ∈ text.takeWhile isWordChar, x = '/'

theorem endsWord_of_head? (h : ∀ x ∈ text.head?, isWordChar x = false) : EndsWord text := by
  intro x hx
  cases text with
  | nil => simp at hx
  | cons y text => simp [h y rfl] at hx

/-- A text without slashes ends in the slashes that are put after it. -/
theorem trailingSlashes_append (htext : ∀ x ∈ text, x ≠ '/') (n : Nat) :
    trailingSlashes (text ++ List.replicate n '/') = n := by
  have hstop : ∀ x ∈ text.reverse.head?, (x == '/') = false := by
    intro x hx
    simpa using htext x (List.mem_reverse.mp (List.mem_of_mem_head? hx))
  have hslashes : ∀ x ∈ List.replicate n '/', (x == '/') = true := by simp
  rw [trailingSlashes, List.reverse_append, List.reverse_replicate,
    takeWhile_eq_of_stop hslashes hstop, List.length_replicate]

/-- A word without slashes is read to its end. -/
theorem took_inWord {ch : Char} (hc : c.token = [ch]) (hrest : c.rest = text ++ after)
    (htext : ∀ x ∈ text, isWordChar x = true ∧ x ≠ '/') (hafter : EndsWord after) :
    c.Took text (inWord c) := by
  have hslashes : after.takeWhile isWordChar =
      List.replicate (after.takeWhile isWordChar).length '/' :=
    List.eq_replicate_of_mem hafter
  have htook := took_skip isWordChar c
  rw [hrest, List.takeWhile_append_of_pos fun x hx => (htext x hx).1, hslashes] at htook
  have htail : (c.skip isWordChar).token.tail =
      text ++ List.replicate (after.takeWhile isWordChar).length '/' := by
    rw [htook.token, hc]
    rfl
  have hback := htook.unread
  rw [byteSize_slashes] at hback
  simp only [inWord, htail]
  rwa [trailingSlashes_append fun x hx => (htext x hx).2]

/-- **The piece that is a word** in a tag. -/
theorem readPiece_of_word (hzone : s.zone = .tag) (hc : c.token = [])
    (hrest : c.rest = text ++ after) (hne : text ≠ [])
    (htext : ∀ x ∈ text, isWordChar x = true ∧ x ≠ '/') (hafter : EndsWord after) :
    ∃ d, c.readBlanks? = none ∧ c.Took text d ∧ d.token = text ∧
      readPiece c s = ⟨none, some .word, d, s⟩ := by
  cases text with
  | nil => exact absurd rfl hne
  | cons ch text =>
    obtain ⟨hword, hslash⟩ := htext ch (by simp)
    have hpeek : c.peek? = some ch := by simp [peek?, hrest]
    have hfirst := took_read_one hpeek
    have hfirstToken : (c.read 1).token = [ch] := by rw [hfirst.token, hc, List.nil_append]
    have hfirstRest : (c.read 1).rest = text ++ after := hfirst.rest_eq hrest
    have htook : c.Took (ch :: text) (inWord (c.read 1)) :=
      hfirst.trans (took_inWord hfirstToken hfirstRest (fun x hx => htext x (by simp [hx])) hafter)
    refine ⟨_, readBlanks?_of_peek? hpeek (isBlank_of_isWordChar hword), htook, ?_, ?_⟩
    · rw [htook.token, hc, List.nil_append]
    · simp only [isWordChar, Bool.and_eq_true, bne_iff_ne] at hword
      obtain ⟨⟨⟨⟨⟨-, heq⟩, hlt⟩, hgt⟩, hdouble⟩, hsingle⟩ := hword
      simp [readPiece, hzone, inTag, next?, hpeek, heq, hlt, hgt, hdouble, hsingle, hslash]

/-- The piece that is the delimiter of a closing tag. -/
theorem readPiece_of_closeTag (hzone : s.zone = .text) (hrest : c.rest = '<' :: '/' :: after) :
    c.readBlanks? = none ∧ c.Took ['<', '/'] ((c.read 1).read 1) ∧
      readPiece c s =
        ⟨some .tag, some .closeTag, (c.read 1).read 1, { s with zone := .tag }⟩ := by
  have hpeek : c.peek? = some '<' := by simp [peek?, hrest]
  have hpeek' : (c.read 1).peek? = some '/' := by simp [peek?, Cursor.read, hrest]
  refine ⟨readBlanks?_of_peek? hpeek (by decide),
    (took_read_one hpeek).trans (took_read_one hpeek'), ?_⟩
  simp [readPiece, hzone, inText, next?, hpeek, inDelimiter, readChar?, readIf?, hpeek']

/-- The piece that is the delimiter of an opening tag: nothing stands after it
that would make it another one. -/
theorem readPiece_of_openTag (hzone : s.zone = .text) (hrest : c.rest = '<' :: after)
    (hafter : ∀ x ∈ after.head?, x ≠ '!' ∧ x ≠ '?' ∧ x ≠ '/') :
    c.readBlanks? = none ∧ c.Took ['<'] (c.read 1) ∧
      readPiece c s = ⟨some .tag, some .openTag, c.read 1, { s with zone := .tag }⟩ := by
  have hpeek : c.peek? = some '<' := by simp [peek?, hrest]
  have hnext : (c.read 1).peek? = after.head? := by simp [peek?, Cursor.read, hrest]
  have hnot : ∀ ch ∈ ['!', '?', '/'], (c.read 1).readChar? ch = none := by
    intro ch hch
    simp only [readChar?, readIf?, hnext]
    cases hhead : after.head? with
    | none => rfl
    | some x =>
      have hx := hafter x hhead
      have hne : (x == ch) = false := by
        rw [beq_eq_false_iff_ne]
        rintro rfl
        simp only [List.mem_cons, List.not_mem_nil, or_false] at hch
        tauto
      simp [hne]
  refine ⟨readBlanks?_of_peek? hpeek (by decide), took_read_one hpeek, ?_⟩
  simp [readPiece, hzone, inText, next?, hpeek, inDelimiter, hnot]

/-- A call makes one token, which opens nothing, and leaves the state
standing as said. -/
structure Passes (c : Cursor) (text : List Char) (style : Option Style) (zone : Zone)
    (stage : Stage) (context : List Element) (r : Step State) : Prop where
  took : c.Took text r.cursor
  style : r.style = style
  opened : r.state.opened = false
  stands : r.state.Stands zone stage context

/-- Such a call is a run of its own. -/
theorem Passes.yields {m : Setup} {style : Option Style} (hne : text ≠ [])
    (h : Passes c.beginToken text style zone stage context (m.token c.beginToken s))
    (hrest : c.rest = text ++ after) :
    ∃ d s', m.tokenizer.Yields (·.opened = false) c s [(text, style)] d s' ∧
      d.rest = after ∧ s'.Stands zone stage context ∧ s'.opened = false := by
  have hyields : m.tokenizer.Yields (·.opened = false) c s
      [(text, (m.token c.beginToken s).style)] (m.token c.beginToken s).cursor
      (m.token c.beginToken s).state := Tokenizer.Yields.call hne h.took h.opened
  rw [h.style] at hyields
  exact ⟨_, _, hyields, h.took.rest_eq hrest, h.stands, h.opened⟩

namespace Setup

variable (m : Setup)

/-- The call that reads a lexeme of a tag. -/
theorem token_of_lexeme {l : Lexeme} {style : Option Style} {p : State}
    (hblanks : c.readBlanks? = none) (hpiece : readPiece c (enter c s) = ⟨style, some l, d, p⟩) :
    m.token c s = ⟨(m.flavour.step l d p).2 <|> style, d, (m.flavour.step l d p).1⟩ := by
  simp only [token, hblanks, hpiece]

/-- The call that reads blanks. -/
theorem token_of_blank {x : Char} (hpeek : c.peek? = some x) (hx : isBlank x = true) :
    m.token c s = ⟨none, c.skip isBlank, enter c s⟩ := by
  have hblanks : c.readBlanks? = some (c.skip isBlank) := by
    simp [readBlanks?, readWhile?, readIf?, hpeek, hx]
  simp only [token, hblanks]

/-- The delimiter of a closing tag, between tags. -/
theorem passes_delimiter (hs : s.Stands .text .base context)
    (hrest : c.rest = '<' :: '/' :: text) :
    Passes c ['<', '/'] (some .tag) .tag .closeName context (m.token c s) := by
  obtain ⟨hblanks, htook, hpiece⟩ := readPiece_of_closeTag (hs.enter c).zone hrest
  have hstep : m.flavour.step .closeTag ((c.read 1).read 1) { enter c s with zone := .tag } =
      ({ enter c s with zone := .tag, stage := .closeName }, none) := by
    simp [Flavour.step, (hs.enter c).stage]
  rw [m.token_of_lexeme hblanks hpiece, hstep]
  exact ⟨htook, rfl, rfl, rfl, rfl, hs.tagName, hs.context⟩

/-- The name of a closing tag. It may imply the end of an element, and fits
the innermost one of the others or is an error. -/
theorem passes_closeWord (hs : s.Stands .tag .closeName context) (hc : c.token = [])
    (hrest : c.rest = spelling ++ after) (hne : spelling ≠ [])
    (hspelling : ∀ x ∈ spelling, isWordChar x = true ∧ x ≠ '/')
    (hafter : ∀ x ∈ after.head?, isWordChar x = false) :
    Passes c spelling
      (some (closingStyle (m.flavour.fitsClosing (m.flavour.elementName spelling) context))) .tag
      (closingStage (m.flavour.fitsClosing (m.flavour.elementName spelling) context))
      (m.flavour.afterImplied (m.flavour.elementName spelling) context) (m.token c s) := by
  obtain ⟨d, hblanks, htook, htoken, hpiece⟩ :=
    readPiece_of_word (hs.enter c).zone hc hrest hne hspelling (endsWord_of_head? hafter)
  have hstep : m.flavour.step .word d (enter c s) =
      m.flavour.stepCloseName (m.flavour.elementName spelling) (enter c s) := by
    simp only [Flavour.step, (hs.enter c).stage, if_true, htoken]
  rw [m.token_of_lexeme hblanks hpiece, hstep, Flavour.stepCloseName_eq, (hs.enter c).context]
  exact ⟨htook, rfl, rfl, hs.zone, rfl, hs.tagName, rfl⟩

/-- The end of a closing tag closes the innermost element, whether the name
fitted it or not. -/
theorem passes_closeEnd {fits : Bool} (hs : s.Stands .tag (closingStage fits) context)
    (hrest : c.rest = '>' :: after) :
    Passes c ['>'] (some (closingStyle fits)) .text .base context.tail (m.token c s) := by
  have hpeek : c.peek? = some '>' := by simp [peek?, hrest]
  have hpiece := readPiece_of_endTag (hs.enter c).zone hpeek
  rw [m.token_of_lexeme (readBlanks?_of_endTag hpeek) hpiece]
  have hcontext : (enter c s).pop.context = context.tail := congrArg List.tail hs.context
  cases fits with
  | true =>
    have hstage : (enter c s).stage = .closing := hs.stage
    simp only [Flavour.step, hstage, stepClose, if_true]
    exact ⟨took_read_one hpeek, rfl, rfl, rfl, rfl, hs.tagName, hcontext⟩
  | false =>
    have hstage : (enter c s).stage = .closingError := hs.stage
    simp only [Flavour.step, hstage, stepClose, if_true]
    exact ⟨took_read_one hpeek, rfl, rfl, rfl, rfl, hs.tagName, hcontext⟩

/-- Blanks within a tag are a token that changes nothing. -/
theorem passes_blanks (hs : s.Stands zone stage context) (hrest : c.rest = gap ++ text)
    (hne : gap ≠ []) (hgap : ∀ x ∈ gap, isBlank x = true)
    (htext : ∀ x ∈ text.head?, isBlank x = false) :
    Passes c gap none zone stage context (m.token c s) := by
  cases gap with
  | nil => exact absurd rfl hne
  | cons x gap =>
    have hpeek : c.peek? = some x := by simp [peek?, hrest]
    have htook := took_skip isBlank c
    rw [hrest, takeWhile_eq_of_stop hgap htext] at htook
    rw [m.token_of_blank hpeek (hgap x (by simp))]
    exact ⟨htook, rfl, rfl, hs.enter c⟩

/-- So blanks that there may be are passed. -/
theorem yields_blanks (hs : s.Stands zone stage context) (hrest : c.rest = gap ++ text)
    (hgap : ∀ x ∈ gap, isBlank x = true) (htext : ∀ x ∈ text.head?, isBlank x = false) :
    ∃ d s', m.tokenizer.Yields (·.opened = false) c s (blankTokens gap) d s' ∧
      d.rest = text ∧ s'.Stands zone stage context := by
  by_cases hne : gap = []
  · subst hne
    exact ⟨c, s, .done c s, hrest, hs⟩
  · obtain ⟨d, s', hyields, hd, hs', -⟩ :=
      (m.passes_blanks (c := c.beginToken) hs hrest hne hgap htext).yields hne hrest
    rw [blankTokens, if_neg hne]
    exact ⟨d, s', hyields, hd, hs'⟩

/-- **The host reads a closing tag** as the tokens of such a tag. None of them
opens anything. Its name may imply the end of an element, and after the last
token the innermost of the others is closed, whether the name fits it or
not. -/
theorem yields_closingTag (hs : s.Stands .text .base context)
    (hrest : c.rest = '<' :: '/' :: (gap ++ (spelling ++ (gap' ++ '>' :: after))))
    (hgap : ∀ x ∈ gap, isBlank x = true) (hgap' : ∀ x ∈ gap', isBlank x = true)
    (hne : spelling ≠ []) (hspelling : ∀ x ∈ spelling, isWordChar x = true ∧ x ≠ '/') :
    ∃ d s', m.tokenizer.Yields (·.opened = false) c s
        (closingTokens gap spelling gap'
          (m.flavour.fitsClosing (m.flavour.elementName spelling) context)) d s' ∧
      d.rest = after ∧
      s'.Stands .text .base (m.flavour.afterImplied (m.flavour.elementName spelling) context).tail ∧
      s'.opened = false := by
  -- a word ends at a blank or at the `>`, and blanks end at a word or at the `>`
  have hblankStop : ∀ x ∈ (spelling ++ (gap' ++ '>' :: after)).head?, isBlank x = false := by
    intro x hx
    cases spelling with
    | nil => exact absurd rfl hne
    | cons y spelling =>
      obtain rfl : y = x := by simpa using hx
      exact isBlank_of_isWordChar (hspelling y (by simp)).1
  have hwordStop : ∀ x ∈ (gap' ++ '>' :: after).head?, isWordChar x = false :=
    head?_of_blanks hgap' (fun _ => isWordChar_of_isBlank) (by decide)
  obtain ⟨c₁, s₁, hdelimiter, hc₁, hs₁, -⟩ :=
    (m.passes_delimiter (c := c.beginToken) hs hrest).yields (by simp) hrest
  obtain ⟨c₂, s₂, hblanks, hc₂, hs₂⟩ := m.yields_blanks hs₁ hc₁ hgap hblankStop
  obtain ⟨c₃, s₃, hname, hc₃, hs₃, -⟩ :=
    (m.passes_closeWord (c := c₂.beginToken) hs₂ rfl hc₂ hne hspelling hwordStop).yields hne hc₂
  obtain ⟨c₄, s₄, hblanks', hc₄, hs₄⟩ := m.yields_blanks hs₃ hc₃ hgap' (by simp; decide)
  obtain ⟨d, s', hend, hd, hs', hopened⟩ :=
    (m.passes_closeEnd (c := c₄.beginToken) hs₄ hc₄).yields (by simp) hc₄
  exact ⟨d, s', hdelimiter.trans (hblanks.trans (hname.trans (hblanks'.trans hend))), hd, hs',
    hopened⟩

/-- **Where no element ends by itself** the name fits the innermost one or is
an error, and the elements around that one are open afterwards. -/
theorem yields_closing {top : Element} {outer : List Element}
    (hs : s.Stands .text .base (top :: outer)) (hself : m.flavour.endsItself top.name = false)
    (hrest : c.rest = '<' :: '/' :: (gap ++ (spelling ++ (gap' ++ '>' :: after))))
    (hgap : ∀ x ∈ gap, isBlank x = true) (hgap' : ∀ x ∈ gap', isBlank x = true)
    (hne : spelling ≠ []) (hspelling : ∀ x ∈ spelling, isWordChar x = true ∧ x ≠ '/') :
    ∃ d s', m.tokenizer.Yields (·.opened = false) c s
        (closingTokens gap spelling gap' (m.flavour.elementName spelling == top.name)) d s' ∧
      d.rest = after ∧ s'.Stands .text .base outer ∧ s'.opened = false := by
  have himplied := m.flavour.afterImplied_of_not_endsItself hself (m.flavour.elementName spelling)
    outer
  have hfits : m.flavour.fitsClosing (m.flavour.elementName spelling) (top :: outer) =
      (m.flavour.elementName spelling == top.name) := by
    rw [Flavour.fitsClosing, himplied]
    exact BEq.comm
  have hyields := m.yields_closingTag hs hrest hgap hgap' hne hspelling
  rwa [hfits, himplied] at hyields

end Setup

end Markup

namespace Mixed

namespace Composite

section Hosted

variable {σ κ φ : Type} {m : Composite Markup.State σ κ φ} {setup : Markup.Setup}
variable {c d : Cursor} {host host' : Markup.State} {tokens : List (List Char × Option Style)}

/-- **Where the host opens nothing, the composite reads as it does**, and
stays outside regions. -/
theorem yields_of_host (hhost : m.host = setup.tokenizer)
    (h : setup.tokenizer.Yields (·.opened = false) c host tokens d host') :
    m.tokenizer.Yields (fun s => s.last = .host ∧ s.active = .host) c ⟨host, none, .host⟩ tokens d
      ⟨host', none, .host⟩ := by
  obtain ⟨calls, hrun, rfl, hcalls⟩ := h
  induction hrun with
  | done c host => exact .done c _
  | @call c d host host' calls hadv hrun ih =>
    have hopened : (setup.token c.beginToken host).state.opened = false :=
      hcalls _ (List.mem_cons_self ..)
    have hopened' := Markup.State.openedElement_of_not_opened hopened
    have htoken : m.tokenizer.token c.beginToken ⟨host, none, .host⟩ =
        ⟨(setup.token c.beginToken host).style, (setup.token c.beginToken host).cursor,
          ⟨(setup.token c.beginToken host).state, none, .host⟩⟩ := by
      change m.hostToken c.beginToken host = _
      have hregion : (setup.token c.beginToken host).state.openedElement.bind (fun e =>
          m.regionOf? e (setup.token c.beginToken host).cursor.line
            (setup.token c.beginToken host).state) = none := by
        rw [hopened', Option.bind_none]
      simp only [hostToken, hhost]
      exact congrArg (fun r => (⟨_, _, ⟨_, r, .host⟩⟩ : Step (State Markup.State σ κ))) hregion
    obtain ⟨text, hne, htook⟩ := hadv
    have htext : setup.tokenizer.textOf ⟨c.beginToken, host⟩ = text := htook.token
    have hfirst : m.tokenizer.Yields (fun s => s.last = .host ∧ s.active = .host) c
        ⟨host, none, .host⟩ _ _ _ :=
      .call hne (by rw [htoken]; exact htook) (by rw [htoken]; exact ⟨rfl, rfl⟩)
    rw [htoken] at hfirst
    have htail := ih (fun k hk => hcalls k (List.mem_cons_of_mem _ hk))
    rw [List.map_cons, Tokenizer.tokenOf, htext]
    exact hfirst.trans htail

end Hosted

section Closing

variable (o : Options) (types : TypePatterns)
variable {s : State Markup.State Script.State Stylesheet.State} {c : Cursor}
variable {r : Region Script.State Stylesheet.State}
variable {top : Markup.Element} {outer : List Markup.Element}
variable {gap spelling gap' after : List Char}

/-- **A region is left by the tokens of its closing tag**, which are all the
host's. They are a tag's if the name is spelled with the letters of ASCII,
in any case, and errors from the name on otherwise; the elements around the
region's are open afterwards in either case. -/
theorem yields_closing (h : s.Consistent o) (hr : s.region = some r)
    (hcontext : s.host.context = top :: outer)
    (hrest : c.rest = '<' :: '/' :: (gap ++ (spelling ++ (gap' ++ '>' :: after))))
    (hgap : ∀ x ∈ gap, isBlank x = true) (hfold : spelling.map foldCase = r.element.name.toList)
    (hgap' : ∀ x ∈ gap', isBlank x = true) :
    ∃ d host, (html o types).tokenizer.Yields (·.last = .host) c s
        (Markup.closingTokens gap spelling gap'
          (decide (spelling.map Char.toLower = r.element.name.toList))) d ⟨host, none, .host⟩ ∧
      d.rest = after ∧ host.Stands .text .base outer ∧ host.opened = false := by
  have hparked := h.parked r hr
  have htop : top.name = r.element.name := hparked.name_of_context hcontext
  have hself : Markup.Flavour.html.endsItself top.name = false := by
    rw [htop]
    exact r.element.endsItself_name
  have hfits : (Markup.Flavour.html.elementName spelling == top.name) =
      decide (spelling.map Char.toLower = r.element.name.toList) := by
    rw [Bool.eq_iff_iff, beq_iff_eq, decide_eq_true_iff, htop, ← String.toList_inj]
    simp [Markup.Flavour.elementName]
  have hword : ∀ x ∈ spelling, Markup.isWordChar x = true ∧ x ≠ '/' := by
    intro x hx
    exact EmbeddingElement.isWordChar_of_spelling (hfold ▸ List.mem_map_of_mem hx)
  have hne : spelling ≠ [] := by
    obtain ⟨x, xs, rfl, -⟩ := EmbeddingElement.exists_cons_of_spelling hfold
    simp
  obtain ⟨d, host, hyields, hd, hstands, hopened⟩ :=
    (Markup.Setup.ofOptions .html o).yields_closing (hparked.stands hcontext) hself hrest hgap
      hgap' hne hword
  -- the first call is the host's, from the state that it was left in
  have hcloses : r.element.Closes c.beginToken.rest :=
    ⟨_, ⟨gap, spelling, gap', rfl, hgap, hfold, hgap'⟩, after, by simp [hrest]⟩
  have hfirst : (html o types).tokenizer.token c.beginToken s =
      (html o types).tokenizer.token c.beginToken ⟨s.host, none, .host⟩ :=
    token_of_closes hr hcloses
  refine ⟨d, host, ?_, hd, hstands, hopened⟩
  rw [← hfits]
  exact .of_token_eq hfirst (by simp [Markup.closingTokens])
    ((yields_of_host rfl hyields).mono fun _ h => h.1)

/-- **Leaving a region restores what was open around it.** From every state
that calls of the html composite lead to, with a region open in an element
that stands on top of `outer`, and at every place where the closing tag of
the region stands, in any case and with any blanks, the calls go over the
tag and no further, and all of them are the host's. After them no region is
open, the host is in text, at the base stage, without a tag name, reports no
element as opened, and has exactly `outer` open. -/
theorem region_left_restores_context (h : (html o types).tokenizer.Reachable s)
    (hr : s.region = some r) (hcontext : s.host.context = top :: outer)
    (hcloses : r.element.closesAt c.rest = true) (index : Nat) :
    ∃ tag after calls d s', r.element.IsClosingTag tag ∧ c.rest = tag ++ after ∧
      (html o types).tokenizer.Run c s calls d s' ∧
      (html o types).tokenizer.readFrom index c s =
        { (html o types).tokenizer.readFrom index d s' with
          spans := calls.map ((html o types).tokenizer.callSpan index) ++
            ((html o types).tokenizer.readFrom index d s').spans } ∧
      Tiles c.line c.pos (calls.map ((html o types).tokenizer.callSpan index))
        (c.pos + byteSize tag) ∧
      d.rest = after ∧
      (∀ k ∈ calls, ((html o types).tokenizer.stepOf k).state.last = .host) ∧
      s'.active = .host ∧ s'.host.zone = .text ∧ s'.host.stage = .base ∧
      s'.host.tagName = none ∧ (html o types).host.openedElement s'.host = none ∧
      s'.host.context = outer := by
  obtain ⟨tag, htag, after, hafter⟩ := EmbeddingElement.closesAt_iff.mp hcloses
  have hparts := htag
  obtain ⟨gap, spelling, gap', rfl, hgap, hfold, hgap'⟩ := hparts
  have hrest : c.rest = '<' :: '/' :: (gap ++ (spelling ++ (gap' ++ '>' :: after))) := by
    rw [← hafter]
    simp
  obtain ⟨d, host, ⟨calls, hrun, -, hlast⟩, hd, hstands, hopened⟩ :=
    yields_closing o types (consistent_of_reachable o types h) hr hcontext hrest hgap hfold hgap'
  have htiles := hrun.tiles index
  rw [hrun.pos_eq hafter.symm hd] at htiles
  exact ⟨_, after, calls, d, _, htag, hafter.symm, hrun, hrun.readFrom_eq index, htiles, hd, hlast,
    rfl, hstands.zone, hstands.stage, hstands.tagName,
    Markup.State.openedElement_of_not_opened hopened, hstands.context⟩

/-- A script in an indented element, left by a tag with blanks and capitals
in the middle of a line, leaves the element open as it was. -/
theorem region_left_from_indented_script :
    (html {} .standard).tokenizer.Reachable (leftBy ["<div>", "  <script>", "f("]) ∧
      EmbeddingElement.script.closesAt "</ ScRiPt ><p>".toList = true ∧
      ∃ calls d s', (html {} .standard).tokenizer.Run (.ofLine "</ ScRiPt ><p>".toList)
          (leftBy ["<div>", "  <script>", "f("]) calls d s' ∧
        (∀ k ∈ calls, ((html {} .standard).tokenizer.stepOf k).state.last = .host) ∧
        s'.active = .host ∧ s'.host.context = [⟨"div", 0, true, false⟩] := by
  have hreach : (html {} .standard).tokenizer.Reachable (leftBy ["<div>", "  <script>", "f("]) :=
    .readLines (.start 0) 0 _
  have hregion : (leftBy ["<div>", "  <script>", "f("]).region =
      some (.script ⟨.code, [⟨')', 0⟩], 4, 0, .other⟩) := by
    decide +kernel
  have hcontext : (leftBy ["<div>", "  <script>", "f("]).host.context =
      [⟨"script", 2, true, false⟩, ⟨"div", 0, true, false⟩] := by
    decide +kernel
  have hcloses : EmbeddingElement.script.closesAt "</ ScRiPt ><p>".toList = true := by
    decide +kernel
  obtain ⟨tag, after, calls, d, s', -, -, hrun, -, -, -, hlast, hactive, -, -, -, -, houter⟩ :=
    region_left_restores_context {} .standard (c := .ofLine "</ ScRiPt ><p>".toList) hreach hregion
      hcontext hcloses 0
  exact ⟨hreach, hcloses, calls, d, s', hrun, hlast, hactive, houter⟩

end Closing

end Composite

end Mixed

end MixedMarkup
