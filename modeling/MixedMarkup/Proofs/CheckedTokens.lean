import MixedMarkup.Proofs.CheckedCursor
import MixedMarkup.Proofs.Consumption
import MixedMarkup.Proofs.History
/-!
# Tokenizers — every move is within its bounds

A few places of the tokenizers count in bytes: the slashes that a word of
a tag gives back, the width of a lexeme of a script or a stylesheet, and
the cut before a closing tag in a region. Here these places are written
again with checked moves, which are refused where they would leave the
token or the line or cut a character in two. They never are: the checked
tokenizers read the tokens that the tokenizers read, from every cursor and
in every state, whatever the line holds.
-/

namespace MixedMarkup

open Text Cursor

/-- A tokenizer's way to read one token that may be refused a move. -/
abbrev Check (σ : Type) := Cursor → σ → Option (Step σ)

namespace Tokenizer

variable {σ : Type}

/-- No move of the check is ever refused, and it reads the tokens of the tokenizer. -/
def Respects (t : Tokenizer σ) (check : Check σ) : Prop := ∀ c s, check c s = some (t.token c s)

/-- At no call in the reading of a document is a move of the check refused, and it reads the
tokens of the document. -/
def RespectsOn (t : Tokenizer σ) (check : Check σ) (source : String) : Prop :=
  ∀ calls ∈ t.callsByLine 0 (linesOf source) (t.start 0), ∀ k ∈ calls,
    check k.cursor k.state = some (t.stepOf k)

theorem Respects.on {t : Tokenizer σ} {check : Check σ} (h : t.Respects check) (source : String) :
    t.RespectsOn check source :=
  fun _ _ k _ => h k.cursor k.state

end Tokenizer

/-! ## Plain text -/

namespace Plain

/-- Read the line to its end, with checked moves. -/
def token? (c : Cursor) (s : Unit) : Option (Step Unit) :=
  (c.readBytes? (byteSize c.rest)).map (⟨none, ·, s⟩)

theorem respects : tokenizer.Respects token? := by
  intro c s
  have hread : c.readBytes? (byteSize c.rest) = some c.readAll :=
    readBytes?_eq_some_iff.mpr ⟨c.rest, [], (List.append_nil c.rest).symm, rfl, rfl⟩
  rw [token?, hread]
  rfl

end Plain

/-! ## Words of tags -/

namespace Markup

/-- Give back the slashes at the end of the token one by one, as long as
the token is longer than one byte, at most as often as the bound says. -/
def giveBackSlashes? : Nat → Cursor → Option Cursor
  | 0, c => some c
  | fuel + 1, c =>
    if 1 < byteSize c.token ∧ c.token.getLast? = some '/' then
      (c.unread? 1).bind (giveBackSlashes? fuel)
    else some c

/-- Read a word of a tag after its first character, with checked moves. -/
def inWord? (c : Cursor) : Option Cursor :=
  let c := c.skip isWordChar
  giveBackSlashes? c.token.length c

/-- Read a piece of a tag, with checked moves. -/
def inTag? (c : Cursor) (s : State) : Option Piece :=
  match c.next? with
  | none => some ⟨none, none, c, s⟩
  | some (ch, c) =>
    if ch == '>' then some ⟨some .tag, some .endTag, c, { s with zone := .text }⟩
    else if ch == '=' then some ⟨none, some .equals, c, s⟩
    else if ch == '<' then
      some ⟨some .error, none, c,
        { s with zone := .text, stage := .base, tagName := none, tagColumn := 0 }⟩
    else if ch == '\x22' || ch == '\x27' then
      some (inValue ch c { s with valueColumn := c.column })
    else if ch == '/' && c.peek? == some '>' then
      some ⟨some .tag, some .selfClose, c.read 1, { s with zone := .text }⟩
    else (inWord? c).map (⟨none, some .word, ·, s⟩)

/-- Read one piece in the zone of the state, with checked moves. -/
def readPiece? (c : Cursor) (s : State) : Option Piece :=
  match s.zone with
  | .tag => inTag? c s
  | .text | .value _ | .verbatim _ | .doctype => some (readPiece c s)

/-- The token that a piece makes, once the tag layer has seen it. -/
def Setup.tokenOf (m : Setup) (piece : Piece) : Step State :=
  match piece.lexeme with
  | none => ⟨piece.style, piece.cursor, piece.state⟩
  | some l =>
    let (s, style) := m.flavour.step l piece.cursor piece.state
    ⟨style <|> piece.style, piece.cursor, s⟩

/-- Read one token, with checked moves. -/
def Setup.token? (m : Setup) (c : Cursor) (s : State) : Option (Step State) :=
  let s := Setup.enter c s
  match c.readBlanks? with
  | some c => some ⟨none, c, s⟩
  | none => (readPiece? c s).map m.tokenOf

theorem le_trailingSlashes (text : List Char) (n : Nat) :
    n ≤ trailingSlashes (text ++ List.replicate n '/') := by
  have hslashes : ∀ x ∈ List.replicate n '/', (x == '/') = true := by simp
  rw [trailingSlashes, List.reverse_append, List.reverse_replicate,
    List.takeWhile_append_of_pos hslashes, List.length_append, List.length_replicate]
  omega

/-- What comes before the slashes at the end of a text does not end in one. -/
theorem exists_stem (text : List Char) : ∃ stem, stem.getLast? ≠ some '/' ∧
    text = stem ++ List.replicate (trailingSlashes text) '/' := by
  obtain ⟨stem, hstem⟩ := exists_append_trailingSlashes text
  refine ⟨stem, fun hlast => ?_, hstem⟩
  obtain ⟨init, rfl⟩ := List.getLast?_eq_some_iff.mp hlast
  rw [List.append_assoc, List.singleton_append, ← List.replicate_succ] at hstem
  have hmore := le_trailingSlashes init (trailingSlashes text + 1)
  rw [← hstem] at hmore
  omega

/-- **The slashes are given back one by one**, all after the first character. -/
theorem giveBackSlashes?_eq {first : Char} {stem : List Char} (hstem : stem.getLast? ≠ some '/')
    {n : Nat} : ∀ (fuel : Nat) (c : Cursor), n ≤ fuel →
      c.token = (first :: stem) ++ List.replicate n '/' →
      giveBackSlashes? fuel c =
        some { c with token := first :: stem, rest := List.replicate n '/' ++ c.rest } := by
  induction n with
  | zero =>
    intro fuel c _ htoken
    rw [List.replicate_zero, List.append_nil] at htoken
    rw [List.replicate_zero, List.nil_append, ← htoken]
    cases fuel with
    | zero => rfl
    | succ fuel =>
      refine if_neg fun ⟨hsize, hlast⟩ => ?_
      rw [htoken] at hsize hlast
      cases stem with
      | nil =>
        obtain rfl : first = '/' := Option.some.inj hlast
        exact absurd hsize (by decide)
      | cons x stem => exact hstem (List.getLast?_cons_cons ▸ hlast)
  | succ n ih =>
    intro fuel c hfuel htoken
    rw [List.replicate_succ', ← List.append_assoc] at htoken
    cases fuel with
    | zero => omega
    | succ fuel =>
      have hlong : 1 < byteSize c.token ∧ c.token.getLast? = some '/' := by
        have hfirst := first.utf8Size_pos
        have hslash : '/'.utf8Size = 1 := by decide
        refine ⟨?_, by rw [htoken, List.getLast?_concat]⟩
        rw [htoken]
        simp only [byteSize_append, byteSize_cons, byteSize_nil]
        omega
      have hback : c.unread? 1 = _ := unread?_append htoken
      rw [giveBackSlashes?, if_pos hlong, hback, Option.bind_some, ih fuel _ (by omega) rfl,
        List.replicate_succ', List.append_assoc]

theorem inWord?_eq (c : Cursor) : inWord? c = some (inWord c) := by
  simp only [inWord?, inWord]
  generalize c.skip isWordChar = d
  cases htoken : d.token with
  | nil =>
    have hback : d.unread (byteSize []) = { d with token := [], rest := [] ++ d.rest } :=
      unread_append htoken
    show some d = some (d.unread (byteSize []))
    rw [hback, List.nil_append, ← htoken]
  | cons first tail =>
    obtain ⟨stem, hstem, htail⟩ := exists_stem tail
    have hsplit : d.token = (first :: stem) ++ List.replicate (trailingSlashes tail) '/' := by
      rw [htoken, List.cons_append, ← htail]
    have hfuel : trailingSlashes tail ≤ (first :: tail).length := by
      have hlen := congrArg List.length htail
      rw [List.length_append, List.length_replicate] at hlen
      rw [List.length_cons]
      omega
    have hback := unread_append hsplit
    rw [byteSize_slashes] at hback
    rw [List.tail_cons, hback]
    exact giveBackSlashes?_eq hstem _ d hfuel hsplit

theorem inTag?_eq (c : Cursor) (s : State) : inTag? c s = some (inTag c s) := by
  unfold inTag? inTag
  cases c.next? with
  | none => rfl
  | some p =>
    dsimp only
    rw [inWord?_eq]
    repeat' split
    all_goals rfl

theorem readPiece?_eq (c : Cursor) (s : State) : readPiece? c s = some (readPiece c s) := by
  unfold readPiece?
  split
  · next hzone => rw [inTag?_eq, readPiece, hzone]
  all_goals rfl

/-- **The moves of the markup tokenizers are never refused.** -/
theorem Setup.respects (m : Setup) : m.tokenizer.Respects m.token? := by
  intro c s
  change m.token? c s = some (m.token c s)
  unfold token? token
  cases c.readBlanks? with
  | some d => rfl
  | none => exact congrArg (Option.map m.tokenOf) (readPiece?_eq c (enter c s))

end Markup

/-! ## Lexemes -/

theorem runLength_le (p : Char → Bool) (text : List Char) : runLength p text ≤ text.length :=
  (List.takeWhile_prefix p).length_le

/-- A lexeme that is found, if any, is of at most `n` characters. -/
def AtMost {α : Type} (n : Nat) (found : Option (α × Nat)) : Prop := ∀ p, found = some p → p.2 ≤ n

namespace AtMost

variable {α β : Type} {n : Nat} {a b : Option (α × Nat)}

theorem none : AtMost n (none : Option (α × Nat)) := nofun

theorem some {p : α × Nat} (h : p.2 ≤ n) : AtMost n (some p) := by
  rintro _ ⟨⟩
  exact h

theorem ite {p : Prop} [Decidable p] (ha : AtMost n a) (hb : AtMost n b) :
    AtMost n (if p then a else b) := by
  split
  · exact ha
  · exact hb

theorem map {o : Option β} {f : β → α × Nat} (h : ∀ x, o = .some x → (f x).2 ≤ n) :
    AtMost n (o.map f) := by
  intro p hp
  obtain ⟨x, hx, rfl⟩ := Option.map_eq_some_iff.mp hp
  exact h x hx

end AtMost

namespace Script

theorem numberTail_le (text : List Char) : numberTail text ≤ text.length := by
  have hwhole := runLength_le isNumberChar text
  simp only [numberTail]
  split
  · next fraction hdrop =>
    have hfraction := runLength_le isNumberChar fraction
    have hlen := congrArg List.length hdrop
    rw [List.length_drop, List.length_cons] at hlen
    omega
  · exact hwhole

theorem slashLexeme_width_le (text : List Char) : (slashLexeme text).2 ≤ text.length + 1 := by
  unfold slashLexeme
  split
  · next text =>
    have := runLength_le (· != '\n') text
    simp only [List.length_cons]
    omega
  · simp
  · simp

theorem dotLexeme_width_le (text : List Char) : (dotLexeme text).2 ≤ text.length + 1 := by
  unfold dotLexeme
  split
  · next c text =>
    have := runLength_le isNumberChar text
    split <;> simp only [List.length_cons] <;> omega
  · simp

/-- A lexeme of a script is no longer than the text that it starts. -/
theorem lexeme?_atMost (text : List Char) : AtMost text.length (lexeme? text) := by
  cases text with
  | nil => exact .none
  | cons c text =>
    have hone : 1 ≤ (c :: text).length := Nat.succ_pos _
    have hrun (n : Nat) (hn : n ≤ text.length) : 1 + n ≤ (c :: text).length := by
      rw [List.length_cons]
      omega
    exact .ite (.some (slashLexeme_width_le text)) <| .ite (.some hone) <| .ite (.some hone) <|
      .ite (.some (hrun _ (numberTail_le text))) <| .ite (.some (dotLexeme_width_le text)) <|
      .ite (.some (hrun _ (runLength_le isWordChar text))) <|
      .ite (.some (hrun _ (runLength_le isOperatorChar text))) <| .ite (.some hone) <|
      .ite (.some hone) <| .map fun _ _ => hone

/-- Read one token outside comments and template literals, with checked moves. -/
def inCode? (c : Cursor) (s : State) : Option (Step State) :=
  match c.readBlanks? with
  | some c => some ⟨none, c, s⟩
  | none =>
    match lexeme? c.rest with
    | some (l, width) => (c.readWidth? width).map (finish l · s)
    | none =>
      match c.next? with
      | some (_, c) => some ⟨none, c, { s with previous := .other }⟩
      | none => some ⟨none, c, s⟩

/-- Read one token, with checked moves. -/
def token? (c : Cursor) (s : State) : Option (Step State) :=
  match s.zone with
  | .code => inCode? c (enter c s)
  | .comment | .template => some (token c s)

theorem inCode?_eq (c : Cursor) (s : State) : inCode? c s = some (inCode c s) := by
  unfold inCode? inCode
  cases c.readBlanks? with
  | some d => rfl
  | none =>
    cases hlexeme : lexeme? c.rest with
    | some p =>
      dsimp only
      rw [readWidth?_eq (lexeme?_atMost c.rest p hlexeme), Option.map_some]
    | none => cases c.next? <;> rfl

/-- **The moves of the script tokenizer are never refused.** -/
theorem respects (o : Options) : (tokenizer o).Respects token? := by
  intro c s
  change token? c s = some (token c s)
  unfold token?
  split
  · next hzone => rw [inCode?_eq, token, hzone]
  all_goals rfl

end Script

namespace Stylesheet

variable {text : List Char} {width : Nat}

theorem quantityLength_le (p : Char → Bool) (text : List Char) :
    quantityLength p text ≤ text.length := by
  have hdigits := runLength_le p text
  have hunit := runLength_le isUnitChar (text.drop (runLength p text))
  rw [List.length_drop] at hunit
  simp only [quantityLength]
  omega

theorem unsignedLength?_le (h : unsignedLength? text = some width) : width ≤ text.length := by
  unfold unsignedLength? at h
  split at h
  · next text =>
    have := quantityLength_le Char.isDigit text
    split at h <;> simp at h
    simp only [List.length_cons]
    omega
  · next c text _ =>
    have := quantityLength_le (fun c => c.isDigit || c == '.') text
    split at h <;> simp at h
    simp only [List.length_cons]
    omega
  · simp at h

theorem nameLength?_le (h : nameLength? text = some width) : width ≤ text.length := by
  unfold nameLength? at h
  split at h
  · next c text =>
    have := runLength_le isNameChar text
    split at h <;> simp at h
    simp only [List.length_cons]
    omega
  · simp at h

theorem hyphenLexeme?_atMost (text : List Char) :
    AtMost (text.length + 1) (hyphenLexeme? text) := by
  unfold hyphenLexeme?
  split
  · next n _ hn =>
    have := unsignedLength?_le hn
    exact .some (by dsimp only; omega)
  · next n _ hn =>
    have := nameLength?_le hn
    exact .some (by dsimp only; omega)
  · next more _ _ =>
    refine .map fun n hn => ?_
    have := nameLength?_le hn
    simp only [List.length_cons]
    omega
  · exact .none

theorem dotLexeme?_atMost (text : List Char) : AtMost (text.length + 1) (dotLexeme? text) := by
  unfold dotLexeme?
  split
  · next n hn =>
    have := unsignedLength?_le hn
    exact .some this
  · next c more _ =>
    have := runLength_le isNameChar more
    refine .ite (.some ?_) .none
    simp only [List.length_cons]
    omega
  · exact .none

theorem markLexeme?_atMost (text : List Char) : AtMost (text.length + 1) (markLexeme? text) := by
  unfold markLexeme?
  dsimp only
  split
  · next hword =>
    -- the gap and the word are both there
    have hlen := (List.isPrefixOf_iff_prefix.mp hword).length_le
    have hgap := runLength_le (fun c => c == ' ' || c == '\t') text
    rw [List.length_drop] at hlen
    exact .some (by dsimp only; omega)
  · exact .none

theorem hashLexeme?_atMost (text : List Char) : AtMost (text.length + 1) (hashLexeme? text) := by
  have := runLength_le isNameChar text
  exact .ite (.some (by dsimp only; omega)) .none

theorem atLexeme?_atMost (text : List Char) : AtMost (text.length + 1) (atLexeme? text) := by
  cases text with
  | nil => exact .none
  | cons c text =>
    have := runLength_le isNameChar text
    refine .ite (.some ?_) .none
    simp only [List.length_cons]
    omega

/-- A lexeme of a stylesheet is no longer than the text that it starts. -/
theorem lexeme?_atMost (text : List Char) : AtMost text.length (lexeme? text) := by
  cases text with
  | nil => exact .none
  | cons c text =>
    have hone : 1 ≤ (c :: text).length := Nat.succ_pos _
    rw [lexeme?]
    split
    · next hopen =>
      -- the second character of the mark is there
      cases text with
      | nil => simp at hopen
      | cons x text => exact .some (by simp)
    · exact .ite (.some hone) <| .ite (hyphenLexeme?_atMost text) <|
        .ite (dotLexeme?_atMost text) <| .ite (markLexeme?_atMost text) <|
        .ite (hashLexeme?_atMost text) <| .ite (atLexeme?_atMost text) <|
        .ite (.map fun _ hn => unsignedLength?_le hn) <|
        .ite (.map fun _ hn => nameLength?_le hn) <| .map fun _ _ => hone

/-- Read one token outside comments, with checked moves. -/
def inRules? (c : Cursor) (s : State) : Option (Step State) :=
  match c.readBlanks? with
  | some c => some ⟨none, c, s⟩
  | none =>
    match lexeme? c.rest with
    | some (l, width) => (c.readWidth? width).map (finish l · s)
    | none => some ⟨none, c.read 1, s⟩

/-- Read one token, with checked moves. -/
def token? (c : Cursor) (s : State) : Option (Step State) :=
  match s.zone with
  | .rules => inRules? c (enter c s)
  | .comment => some (token c s)

theorem inRules?_eq (c : Cursor) (s : State) : inRules? c s = some (inRules c s) := by
  unfold inRules? inRules
  cases c.readBlanks? with
  | some d => rfl
  | none =>
    cases hlexeme : lexeme? c.rest with
    | some p =>
      dsimp only
      rw [readWidth?_eq (lexeme?_atMost c.rest p hlexeme), Option.map_some]
    | none => rfl

/-- **The moves of the stylesheet tokenizer are never refused.** -/
theorem respects (o : Options) : (tokenizer o).Respects token? := by
  intro c s
  change token? c s = some (token c s)
  unfold token?
  split
  · next hzone => rw [inRules?_eq, token, hzone]
  · rfl

end Stylesheet

/-! ## Regions -/

namespace Mixed

/-- Give back so much of the token just read that the closing tag is left
for the host, with checked moves. -/
def EmbeddingElement.trim? (e : EmbeddingElement) (c : Cursor) : Option Cursor :=
  match e.findClosing? c.token with
  | some 0 => some c
  | some offset =>
    if offset ≤ byteSize c.token then c.unread? (byteSize c.token - offset) else none
  | none =>
    if e.mayTear c.token (!c.atEnd) then
      (c.unread? (byteSize c.token)).bind fun back =>
        if e.closesAt back.rest then some back
        else
          match c.token with
          | first :: _ => back.readBytes? first.utf8Size
          | [] => some back
    else some c

/-- **The cut before a closing tag is never refused.** The tag is found at
an end of the token, which is given back; and of a token that is given
back as a whole the first character can be read again. -/
theorem EmbeddingElement.trim?_eq (e : EmbeddingElement) (c : Cursor) :
    e.trim? c = some (e.trim c) := by
  unfold trim? trim
  cases hfind : e.findClosing? c.token with
  | some offset =>
    obtain ⟨body, after, htoken, rfl, -, -⟩ := findClosing?_eq_some hfind
    have hgiven : byteSize c.token - byteSize body = byteSize after := by
      rw [htoken, byteSize_append]
      omega
    have hle : byteSize body ≤ byteSize c.token := by
      rw [htoken, byteSize_append]
      omega
    cases hbody : byteSize body with
    | zero => rfl
    | succ offset =>
      rw [hbody] at hle hgiven
      show (if offset + 1 ≤ byteSize c.token then c.unread? (byteSize c.token - (offset + 1))
        else none) = some (c.unread (byteSize c.token - (offset + 1)))
      rw [if_pos hle, hgiven, unread?_eq htoken]
  | none =>
    dsimp only
    split
    · have hback := unread_append (List.nil_append c.token).symm
      rw [unread?_append (List.nil_append c.token).symm, Option.bind_some, hback]
      split
      · rfl
      · cases htoken : c.token with
        | nil => rfl
        | cons first token =>
          have hfirst (d : Cursor) (hd : d.rest = [first] ++ (token ++ c.rest)) :
              d.readBytes? first.utf8Size = some (d.readBytes first.utf8Size) :=
            readBytes?_eq hd
          exact hfirst _ rfl
    · rfl

namespace Composite

variable {η σ κ φ : Type}

/-- Checks for the tokenizers of a composite. -/
structure Checks (η σ κ φ : Type) where
  host : Check η
  script : Check σ
  style : Check κ
  fallback : Check φ

/-- The checks are passed by the tokenizers of a composite. -/
structure Checks.Respected (checks : Checks η σ κ φ) (m : Composite η σ κ φ) : Prop where
  host : m.host.Respects checks.host
  script : m.script.Respects checks.script
  style : m.style.Respects checks.style
  fallback : m.fallback.Respects checks.fallback

variable (m : Composite η σ κ φ) (checks : Checks η σ κ φ)

/-- Read a token with the host, with checked moves, and open the region that the token leads to. -/
def hostToken? (c : Cursor) (host : η) : Option (Step (State η σ κ)) :=
  (checks.host c host).map fun step =>
    let region :=
      (m.host.openedElement step.state).bind fun e => m.regionOf? e step.cursor.line step.state
    ⟨step.style, step.cursor, ⟨step.state, region, .host⟩⟩

/-- Read a token with the tokenizer of a region, with checked moves. -/
def regionToken? (c : Cursor) : Region σ κ → Option (Step (Region σ κ))
  | .script s => (checks.script c s).map (·.map .script)
  | .style s => (checks.style c s).map (·.map .style)
  | .unknown => (checks.fallback c (m.fallback.start 0)).map (·.map fun _ => .unknown)

/-- Read one token, with checked moves. -/
def token? (c : Cursor) (s : State η σ κ) : Option (Step (State η σ κ)) :=
  match s.region with
  | none => m.hostToken? checks c s.host
  | some r =>
    if r.element.closesAt c.rest then m.hostToken? checks c s.host
    else
      (m.regionToken? checks c r).bind fun step =>
        (r.element.trim? step.cursor).map fun trimmed =>
          ⟨step.style, trimmed, ⟨s.host, some step.state, r.grammar⟩⟩

variable {m checks}

theorem hostToken?_eq (h : checks.Respected m) (c : Cursor) (host : η) :
    m.hostToken? checks c host = some (m.hostToken c host) := by
  rw [hostToken?, h.host, Option.map_some]
  rfl

theorem regionToken?_eq (h : checks.Respected m) (c : Cursor) (r : Region σ κ) :
    m.regionToken? checks c r = some (m.regionToken c r) := by
  cases r with
  | script s => rw [regionToken?, h.script, Option.map_some]; rfl
  | style s => rw [regionToken?, h.style, Option.map_some]; rfl
  | unknown => rw [regionToken?, h.fallback, Option.map_some]; rfl

/-- **A composite is never refused a move if its tokenizers are not.** -/
theorem respects (h : checks.Respected m) : m.tokenizer.Respects (m.token? checks) := by
  intro c s
  change m.token? checks c s = some (m.token c s)
  unfold token? token
  cases s.region with
  | none => exact hostToken?_eq h c s.host
  | some r =>
    dsimp only
    split
    · exact hostToken?_eq h c s.host
    · rw [regionToken?_eq h, Option.bind_some, EmbeddingElement.trim?_eq, Option.map_some]

end Composite

/-- The checks of html with javascript and css. -/
def htmlChecks (o : Options) :
    Composite.Checks Markup.State Script.State Stylesheet.State Unit where
  host := (Markup.Setup.ofOptions .html o).token?
  script := Script.token?
  style := Stylesheet.token?
  fallback := Plain.token?

theorem htmlChecks_respected (o : Options) (types : TypePatterns) :
    (htmlChecks o).Respected (html o types) where
  host := (Markup.Setup.ofOptions .html o).respects
  script := Script.respects o
  style := Stylesheet.respects o
  fallback := Plain.respects

end Mixed

open Mixed

/-- **No move is made outside its bounds.** Under all options, in the
reading of every document by each of the tokenizers, html with its regions
among them whatever its script type patterns are, what is given back belongs
to the token and starts between two characters, and what is read by its
bytes is on the line and ends between two characters. And wherever a cursor
stands, in these readings and in any other, the rest of the line, the token
and the text that its column is computed from are slices at offsets that are
in range and between two characters. -/
theorem moves_checked :
    (∀ (o : Options) (source : String),
      (∀ m, htmlOfOptions o = .ok m → m.tokenizer.RespectsOn (m.token? (htmlChecks o)) source) ∧
        (∀ types, (html o types).tokenizer.RespectsOn
          ((html o types).token? (htmlChecks o)) source) ∧
        (Markup.html o).RespectsOn (Markup.Setup.ofOptions .html o).token? source ∧
        (Markup.xml o).RespectsOn (Markup.Setup.ofOptions .xml o).token? source ∧
        (Script.tokenizer o).RespectsOn Script.token? source ∧
        (Stylesheet.tokenizer o).RespectsOn Stylesheet.token? source ∧
        Plain.tokenizer.RespectsOn Plain.token? source) ∧
    ∀ c : Cursor,
      c.rest? = some c.rest ∧ c.token? = some c.token ∧ c.column? = some c.column := by
  refine ⟨fun o source => ?_, slices⟩
  have htypes : ∀ types, (html o types).tokenizer.RespectsOn
      ((html o types).token? (htmlChecks o)) source :=
    fun types => (Composite.respects (htmlChecks_respected o types)).on source
  refine ⟨?_, htypes, (Markup.Setup.respects _).on source, (Markup.Setup.respects _).on source,
    (Script.respects o).on source, (Stylesheet.respects o).on source, Plain.respects.on source⟩
  intro m hm
  unfold htmlOfOptions at hm
  cases hread : TypePatterns.ofOptions o with
  | error failure => simp [hread, Except.map] at hm
  | ok types =>
    simp only [hread, Except.map, Except.ok.injEq] at hm
    exact hm ▸ htypes types

/-- Under the default options no move is refused where a tag is torn
behind a wide character, and where a word of a tag ends in slashes. -/
theorem moves_checked_default :
    ∃ m, htmlOfOptions {} = .ok m ∧
      m.tokenizer.RespectsOn (m.token? (htmlChecks {})) "<b é// ><script>'é</scr\n</script>" := by
  have hok : (htmlOfOptions {}).isOk = true := by decide +kernel
  cases hm : htmlOfOptions {} with
  | error failure => simp [hm, Except.isOk, Except.toBool] at hok
  | ok m => exact ⟨m, rfl, (moves_checked.1 {} _).1 m hm⟩

end MixedMarkup
