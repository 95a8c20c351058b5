import MixedMarkup.Document
import MixedMarkup.Proofs.AlikeMarkup
import MixedMarkup.Script.Tokenizer
import MixedMarkup.Stylesheet.Tokenizer
/-!
# Documents — states that read alike

A relation on states is kept by reading when related states make the same
token from the same place and are related again after it
(`Tokenizer.ReadsAlike`). The two states may belong to two tokenizers, and
the places may differ in the width of the tab stops. Lines read from
related states then have the same spans (`ReadsAlike.readLinesWith`). Each
tokenizer of the library has such a relation, which leaves out what only
indentation depends on.
-/

namespace MixedMarkup

open Cursor Text

/-! ## Tab stops -/

namespace Cursor

/-- The cursor with tab stops of another width. -/
def retab (tabSize : Nat) (c : Cursor) : Cursor := { c with tabSize := tabSize }

variable (n : Nat) (c : Cursor)

@[simp] theorem token_retab : (c.retab n).token = c.token := rfl

@[simp] theorem rest_retab : (c.retab n).rest = c.rest := rfl

@[simp] theorem line_retab : (c.retab n).line = c.line := rfl

@[simp] theorem start_retab : (c.retab n).start = c.start := rfl

@[simp] theorem pos_retab : (c.retab n).pos = c.pos := rfl

@[simp] theorem atEnd_retab : (c.retab n).atEnd = c.atEnd := rfl

@[simp] theorem beginToken_retab : (c.retab n).beginToken = c.beginToken.retab n := rfl

@[simp] theorem read_retab (k : Nat) : (c.retab n).read k = (c.read k).retab n := rfl

@[simp] theorem unread_retab (k : Nat) : (c.retab n).unread k = (c.unread k).retab n := rfl

@[simp] theorem readBlanks?_retab : (c.retab n).readBlanks? = c.readBlanks?.map (retab n) := by
  simp only [readBlanks?, readWhile?, readIf?, peek?, rest_retab]
  cases c.rest.head? with
  | none => rfl
  | some ch => cases hblank : isBlank ch <;> simp [hblank, skip]

@[simp] theorem next?_retab :
    (c.retab n).next? = c.next?.map fun (ch, d) => (ch, d.retab n) := by
  simp only [next?, peek?, rest_retab, read_retab, Option.map_map]
  rfl

end Cursor

namespace Tokenizer

variable {σ : Type} {t t' : Tokenizer σ} {R : σ → σ → Prop}

/-- Read lines as `readLines` does, with tab stops of the width. -/
def readLinesWith (t : Tokenizer σ) (tabSize index : Nat) : List (List Char) → σ → Reading σ
  | [], state => ⟨[], state, none⟩
  | line :: lines, state =>
    let first := t.readFrom index (.withTabSize tabSize line) state
    match first.failure with
    | some _ => first
    | none =>
      let tail := t.readLinesWith tabSize (index + 1) lines first.state
      { tail with spans := first.spans ++ tail.spans }

theorem readLinesWith_defaultTabSize (t : Tokenizer σ) (lines : List (List Char)) :
    ∀ (index : Nat) (s : σ), t.readLinesWith defaultTabSize index lines s =
      t.readLines index lines s := by
  induction lines with
  | nil =>
    intro index s
    rfl
  | cons line lines ih =>
    intro index s
    simp only [readLinesWith, readLines, ih]
    rfl

/-- Two tokens are the same to a reader, the second one on a line with tab
stops of the width, and leave related states. -/
structure SameToken (t t' : Tokenizer σ) (R : σ → σ → Prop) (tabSize : Nat) (r r' : Step σ) :
    Prop where
  style : r'.style = r.style
  cursor : r'.cursor = r.cursor.retab tabSize
  grammar : t'.grammar r'.state = t.grammar r.state
  state : R r.state r'.state

/-- Related states make the same token wherever a token begins, and are
related again after it. -/
def ReadsAlike (t t' : Tokenizer σ) (R : σ → σ → Prop) : Prop :=
  ∀ (c : Cursor) (tabSize : Nat) (s s' : σ), c.token = [] → c.rest ≠ [] → R s s' →
    t.SameToken t' R tabSize (t.token c s) (t'.token (c.retab tabSize) s')

theorem SameToken.spanOf {tabSize : Nat} {r r' : Step σ} (h : t.SameToken t' R tabSize r r')
    (index : Nat) : t'.spanOf index r' = t.spanOf index r := by
  simp only [Tokenizer.spanOf, h.style, h.cursor, h.grammar, start_retab, pos_retab, token_retab]

/-- What is left of a line is read the same from related states. -/
theorem ReadsAlike.readFrom (ht : t.ReadsAlike t' R) (index : Nat) (c : Cursor) (tabSize : Nat)
    {s s' : σ} (h : R s s') :
    (t'.readFrom index (c.retab tabSize) s').spans = (t.readFrom index c s).spans ∧
      (t'.readFrom index (c.retab tabSize) s').failure = (t.readFrom index c s).failure ∧
      R (t.readFrom index c s).state (t'.readFrom index (c.retab tabSize) s').state := by
  -- each call leaves less of the line
  induction hn : c.rest.length using Nat.strongRecOn generalizing c s s' with
  | ind n ih =>
    rw [Tokenizer.readFrom, Tokenizer.readFrom, atEnd_retab]
    by_cases hend : c.atEnd
    · rw [if_pos hend, if_pos hend]
      exact ⟨rfl, rfl, h⟩
    · have hrest : c.rest ≠ [] := fun hnil => hend (atEnd_iff.mpr hnil)
      have htoken := ht c.beginToken tabSize s s' rfl hrest h
      rw [if_neg hend, if_neg hend]
      simp only [beginToken_retab, htoken.cursor, htoken.spanOf, htoken.grammar, rest_retab,
        pos_retab]
      split
      · rename_i hlt
        obtain ⟨hspans, hfailure, hstate⟩ := ih _ (hn ▸ hlt) _ htoken.state rfl
        exact ⟨by rw [hspans], hfailure, hstate⟩
      · exact ⟨rfl, rfl, htoken.state⟩

/-- **Lines are read the same from related states**, with tab stops of any
widths. -/
theorem ReadsAlike.readLinesWith (ht : t.ReadsAlike t' R) (tabSize tabSize' : Nat)
    (lines : List (List Char)) :
    ∀ (index : Nat) (s s' : σ), R s s' →
      (t'.readLinesWith tabSize' index lines s').spans =
          (t.readLinesWith tabSize index lines s).spans ∧
        (t'.readLinesWith tabSize' index lines s').failure =
          (t.readLinesWith tabSize index lines s).failure := by
  induction lines with
  | nil =>
    intro index s s' _
    exact ⟨rfl, rfl⟩
  | cons line lines ih =>
    intro index s s' h
    obtain ⟨hspans, hfailure, hstate⟩ :=
      ht.readFrom index (.withTabSize tabSize line) tabSize' h
    have hretab : (withTabSize tabSize line).retab tabSize' = .withTabSize tabSize' line := rfl
    rw [hretab] at hspans hfailure hstate
    obtain ⟨hspans', hfailure'⟩ := ih (index + 1) _ _ hstate
    simp only [Tokenizer.readLinesWith, hfailure]
    split
    · exact ⟨hspans, hfailure⟩
    · exact ⟨by rw [hspans, hspans'], hfailure'⟩

/-- In particular with those of the driver. -/
theorem ReadsAlike.readLines (ht : t.ReadsAlike t' R) (lines : List (List Char)) (index : Nat)
    (s s' : σ) (h : R s s') :
    (t'.readLines index lines s').spans = (t.readLines index lines s).spans := by
  rw [← readLinesWith_defaultTabSize, ← readLinesWith_defaultTabSize]
  exact (ht.readLinesWith defaultTabSize defaultTabSize lines index s s' h).1

end Tokenizer

/-! ## Markup -/

namespace Markup

variable {s s' : State} {c : Cursor}

/-- Which element a token opens depends on what alike states have in
common. -/
theorem Setup.openedElement_token_alike (m : Setup) (hc : c.token = []) (hrest : c.rest ≠ [])
    (tabSize : Nat) (h : s.Alike s') :
    (m.token (c.retab tabSize) s').state.openedElement = (m.token c s).state.openedElement := by
  obtain ⟨-, hlexeme⟩ := m.token_abreast (c := c) (d := c.retab tabSize) (.inl ⟨rfl, rfl⟩)
    (.refl rfl rfl) h (Nat.zero_le _)
  apply Option.ext
  intro e
  rw [m.openedElement_token_iff hc hrest, m.openedElement_token_iff (c := c.retab tabSize) hc hrest,
    hlexeme, h.stage]
  constructor
  · rintro ⟨hend, hnamed, hname, hvoid⟩
    exact ⟨hend, hnamed, h.tagName hnamed ▸ hname, hvoid⟩
  · rintro ⟨hend, hnamed, hname, hvoid⟩
    exact ⟨hend, hnamed, (h.tagName hnamed).symm ▸ hname, hvoid⟩

/-- **Alike markup states read alike**, whatever indents the lines. -/
theorem Setup.readsAlike_of_flavour {m m' : Setup} (hflavour : m'.flavour = m.flavour) :
    m.tokenizer.ReadsAlike m'.tokenizer.toTokenizer State.Alike := by
  intro c tabSize s s' hc hrest h
  have hsame : m'.token = m.token := by
    funext c s
    simp only [token, hflavour]
  obtain ⟨hstep, -⟩ := m.token_abreast (c := c) (d := c.retab tabSize) (.inl ⟨rfl, rfl⟩)
    (.refl rfl rfl) h (Nat.zero_le _)
  obtain ⟨text, -, htook⟩ := m.tokenizer_consumes c s hc hrest
  obtain ⟨text', -, htook'⟩ := m.tokenizer_consumes (c.retab tabSize) s' hc hrest
  change m.tokenizer.SameToken m'.tokenizer.toTokenizer State.Alike tabSize (m.token c s)
    (m'.token (c.retab tabSize) s')
  rw [hsame]
  refine ⟨hstep.style, ?_, congrArg Flavour.name hflavour, hstep.state⟩
  -- both tokens are read from the one place
  obtain ⟨u, hu, hu'⟩ := hstep.cursor.ahead
  rw [Cursor.mk.injEq]
  refine ⟨?_, hstep.cursor.token, hu'.trans hu.symm, ?_⟩
  · exact htook'.before.trans htook.before.symm
  · exact htook'.tabSize

theorem Setup.readsAlike (m : Setup) :
    m.tokenizer.ReadsAlike m.tokenizer.toTokenizer State.Alike :=
  readsAlike_of_flavour rfl

end Markup

/-! ## Scripts -/

namespace Script

/-- Two states differ at most in what indentation depends on. -/
structure State.Alike (s s' : State) : Prop where
  zone : s'.zone = s.zone
  previous : s'.previous = s.previous

variable {s s' : State}

theorem initial_alike (n n' : Nat) : (State.initial n).Alike (.initial n') := ⟨rfl, rfl⟩

theorem finish_alike (o o' : Options) (l : Lexeme) (c : Cursor) (tabSize : Nat)
    (h : s.Alike s') :
    (tokenizer o).SameToken (tokenizer o') State.Alike tabSize (finish l c s)
      (finish l (c.retab tabSize) s') := by
  cases l with
  | word =>
    simp only [finish, h.previous, token_retab]
    exact ⟨rfl, rfl, rfl, h.zone, rfl⟩
  | lineComment => exact ⟨rfl, rfl, rfl, h⟩
  | blockComment => exact ⟨rfl, rfl, rfl, rfl, h.previous⟩
  | template => exact ⟨rfl, rfl, rfl, rfl, rfl⟩
  | quote | number | opening | closing | dot | punctuation | operator =>
    exact ⟨rfl, rfl, rfl, h.zone, rfl⟩

/-- **Alike script states read alike.** -/
theorem readsAlike (o o' : Options) : (tokenizer o).ReadsAlike (tokenizer o') State.Alike := by
  intro c tabSize s s' _ _ h
  have henter : (enter c s).Alike (enter (c.retab tabSize) s') := ⟨h.zone, h.previous⟩
  change (tokenizer o).SameToken (tokenizer o') State.Alike tabSize (token c s)
    (token (c.retab tabSize) s')
  unfold token
  rw [h.zone]
  cases s.zone with
  | comment => exact ⟨rfl, rfl, rfl, rfl, h.previous⟩
  | template => exact ⟨rfl, rfl, rfl, rfl, h.previous⟩
  | code =>
    dsimp only
    unfold inCode
    rw [readBlanks?_retab, next?_retab, rest_retab]
    cases c.readBlanks? with
    | some d => exact ⟨rfl, rfl, rfl, henter⟩
    | none =>
      dsimp only [Option.map_none]
      split
      · exact finish_alike o o' _ _ tabSize henter
      · cases c.next? with
        | some next => exact ⟨rfl, rfl, rfl, h.zone, rfl⟩
        | none => exact ⟨rfl, rfl, rfl, henter⟩

end Script

/-! ## Stylesheets -/

namespace Stylesheet

/-- Two states differ at most in what indentation depends on. -/
structure State.Alike (s s' : State) : Prop where
  zone : s'.zone = s.zone
  kinds : s'.nests.map (·.kind) = s.nests.map (·.kind)
  inValue : s'.inValue = s.inValue
  pseudo : s'.pseudo = s.pseudo
  inPrelude : s'.inPrelude = s.inPrelude

variable {s s' : State}

theorem initial_alike (n n' : Nat) : (State.initial n).Alike (.initial n') :=
  ⟨rfl, rfl, rfl, rfl, rfl⟩

theorem State.Alike.inDeclarations (h : s.Alike s') : s'.inDeclarations = s.inDeclarations := by
  have hfind (nests : List Nest) : (nests.find? (·.kind != .parens)).any (·.kind == .rule) =
      ((nests.map (·.kind)).find? (· != .parens)).any (· == .rule) := by
    rw [List.find?_map, Option.any_map]
    rfl
  rw [State.inDeclarations, State.inDeclarations, hfind, hfind, h.kinds]

/-- What a closing bracket leaves depends on the kinds of the nests. -/
theorem map_kind_closeBrace {nests nests' : List Nest}
    (h : nests'.map (·.kind) = nests.map (·.kind)) :
    (closeBrace nests').map (·.kind) = (closeBrace nests).map (·.kind) := by
  induction nests generalizing nests' with
  | nil => rw [List.map_eq_nil_iff.mp h]
  | cons top outer ih =>
    cases nests' with
    | nil => simp at h
    | cons top' outer' =>
      obtain ⟨hkind, houter⟩ := List.cons.inj h
      have hkind : top'.kind = top.kind := hkind
      simp only [closeBrace, hkind]
      split
      · exact ih houter
      · exact houter

theorem map_kind_closeParen {nests nests' : List Nest}
    (h : nests'.map (·.kind) = nests.map (·.kind)) :
    (closeParen nests').map (·.kind) = (closeParen nests).map (·.kind) := by
  cases nests with
  | nil => rw [List.map_eq_nil_iff.mp h]
  | cons top outer =>
    cases nests' with
    | nil => simp at h
    | cons top' outer' =>
      obtain ⟨hkind, houter⟩ := List.cons.inj h
      have hkind : top'.kind = top.kind := hkind
      simp only [closeParen, hkind]
      split
      · exact houter
      · exact h

theorem afterLexeme_alike (l : Lexeme) (h : s.Alike s') :
    (afterLexeme l s).Alike (afterLexeme l s') := by
  cases l with
  | atKeyword => exact ⟨h.zone, h.kinds, h.inValue, rfl, rfl⟩
  | openBrace =>
    refine ⟨h.zone, ?_, rfl, rfl, rfl⟩
    simp only [afterLexeme, State.push, List.map_cons, h.kinds, h.inPrelude]
  | closeBrace => exact ⟨h.zone, map_kind_closeBrace h.kinds, rfl, rfl, h.inPrelude⟩
  | openParen =>
    refine ⟨h.zone, ?_, h.inValue, rfl, h.inPrelude⟩
    simp only [afterLexeme, State.push, List.map_cons, h.kinds]
  | closeParen => exact ⟨h.zone, map_kind_closeParen h.kinds, h.inValue, rfl, h.inPrelude⟩
  | colon =>
    have hplain : State.Alike { s with pseudo := false } { s' with pseudo := false } :=
      ⟨h.zone, h.kinds, h.inValue, rfl, h.inPrelude⟩
    simp only [afterLexeme, hplain.inDeclarations]
    split
    · exact ⟨h.zone, h.kinds, rfl, rfl, h.inPrelude⟩
    · exact ⟨h.zone, h.kinds, h.inValue, rfl, h.inPrelude⟩
  | semicolon => exact ⟨h.zone, h.kinds, rfl, rfl, rfl⟩
  | comment | quote | number | hash | ident | className | important | comma | operator =>
    exact ⟨h.zone, h.kinds, h.inValue, rfl, h.inPrelude⟩

theorem lexemeStyle_alike (l : Lexeme) (h : s.Alike s') : lexemeStyle l s' = lexemeStyle l s := by
  have hdecl := h.inDeclarations
  cases l with
  | hash => simp only [lexemeStyle, h.inValue]
  | ident => simp only [lexemeStyle, identStyle, h.pseudo, h.inValue, hdecl]
  | _ => rfl

theorem finish_alike (o o' : Options) (l : Lexeme) (c : Cursor) (tabSize : Nat)
    (h : s.Alike s') :
    (tokenizer o).SameToken (tokenizer o') State.Alike tabSize (finish l c s)
      (finish l (c.retab tabSize) s') := by
  have hstyle := lexemeStyle_alike l h
  have hstate := afterLexeme_alike l h
  cases l with
  | comment => exact ⟨rfl, rfl, rfl, rfl, h.kinds, h.inValue, h.pseudo, h.inPrelude⟩
  | _ => exact ⟨hstyle, rfl, rfl, hstate⟩

/-- **Alike stylesheet states read alike.** -/
theorem readsAlike (o o' : Options) : (tokenizer o).ReadsAlike (tokenizer o') State.Alike := by
  intro c tabSize s s' _ _ h
  have henter : (enter c s).Alike (enter (c.retab tabSize) s') :=
    ⟨h.zone, h.kinds, h.inValue, h.pseudo, h.inPrelude⟩
  change (tokenizer o).SameToken (tokenizer o') State.Alike tabSize (token c s)
    (token (c.retab tabSize) s')
  unfold token
  rw [h.zone]
  cases s.zone with
  | comment => exact ⟨rfl, rfl, rfl, rfl, h.kinds, h.inValue, h.pseudo, h.inPrelude⟩
  | rules =>
    dsimp only
    unfold inRules
    rw [readBlanks?_retab, rest_retab]
    cases c.readBlanks? with
    | some d => exact ⟨rfl, rfl, rfl, henter⟩
    | none =>
      dsimp only [Option.map_none]
      split
      · exact finish_alike o o' _ _ tabSize henter
      · exact ⟨rfl, rfl, rfl, henter⟩

end Stylesheet

end MixedMarkup
