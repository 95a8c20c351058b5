import MixedMarkup.Proofs.Consumption
import MixedMarkup.Proofs.ParkedHost
import MixedMarkup.Proofs.VisibleBrackets
/-!
# Brackets — what they leave behind

The tokenizers of scripts and of stylesheets see the brackets that their text
shows: each call reads a part of the text, and turns its stack of open
brackets as the brackets of that part say (`Script.seesBrackets`,
`Stylesheet.seesBrackets`). From the calls it comes to lines
(`Tokenizer.SeesBrackets.readLines`). So lines whose brackets are well nested
leave the stack as it was, and with it the indentation of what follows,
wherever they hide other brackets (`brackets_restored`).
-/

namespace MixedMarkup

open Cursor Text

namespace Tokenizer

variable {σ : Type} {t : Tokenizer σ}

/-! ## From a call to lines -/

/-- The reading of a line leaves alone what all calls leave alone. -/
theorem readFrom_kept {α : Type} {f : σ → α} (h : ∀ c s, f (t.token c s).state = f s) (index : Nat)
    (c : Cursor) (s : σ) : f (t.readFrom index c s).state = f s := by
  fun_induction readFrom t index c s with
  | case1 => rfl
  | case2 c s _ step _ tail ih => exact ih.trans (h _ _)
  | case3 c s => exact h _ _

/-- And so does the reading of lines. -/
theorem readLines_kept {α : Type} {f : σ → α} (h : ∀ c s, f (t.token c s).state = f s)
    (lines : List (List Char)) :
    ∀ (index : Nat) (s : σ), f (t.readLines index lines s).state = f s := by
  induction lines with
  | nil => exact fun _ _ => rfl
  | cons line lines ih =>
    intro index s
    have hline : f (t.readLine index line s).state = f s := readFrom_kept h index _ s
    rw [readLines]
    dsimp only
    split
    · exact hline
    · exact (ih _ _).trans hline

variable {β : Type} {r : BracketRules} {k : BracketStack β} {inside : σ → Inside}
variable {stack : σ → List β} {c d : Cursor} {s s' : σ} {calls : List (Call σ)}

/-- **The tokenizer sees the brackets of its text.** A state tells where the
text before it ends, which is never within a string, and a call shows the
brackets of what it reads and turns the stack as they say. -/
structure SeesBrackets (t : Tokenizer σ) (r : BracketRules) (k : BracketStack β)
    (inside : σ → Inside) (stack : σ → List β) : Prop where
  consumes : t.Consumes
  carried : ∀ s, (inside s).nextLine = inside s
  call : ∀ (c : Cursor) (s : σ), c.rest ≠ [] → '\n' ∉ c.rest → ∃ shown,
    r.Reveals (inside s) c.rest shown (inside (t.token c s).state) (t.token c s).cursor.rest ∧
      r.TurnsOn k shown (stack s) (stack (t.token c s).state)

namespace SeesBrackets

/-- A run of calls sees the brackets of what it reads. -/
theorem run (h : t.SeesBrackets r k inside stack) (hrun : t.Run c s calls d s')
    (hfeed : '\n' ∉ c.rest) : ∃ shown,
      r.Reveals (inside s) c.rest shown (inside s') d.rest ∧
        r.TurnsOn k shown (stack s) (stack s') := by
  induction hrun with
  | done => exact ⟨[], .refl, .nil _⟩
  | @call c _ s _ _ hadv _ ih =>
    obtain ⟨text, hne, htook⟩ := hadv
    have hrest : c.rest = text ++ (t.token c.beginToken s).cursor.rest := htook.rest
    have hne' : c.rest ≠ [] := by simp [hrest, hne]
    obtain ⟨first, hfirst, hturns⟩ := h.call c.beginToken s hne' hfeed
    rw [hrest, List.mem_append, not_or] at hfeed
    obtain ⟨more, hmore, hturns'⟩ := ih hfeed.2
    exact ⟨first ++ more, hfirst.trans hmore, hturns.append hturns'⟩

/-- The reading of a line sees all of its brackets, and ends where the text
of the line does. -/
theorem readLine (h : t.SeesBrackets r k inside stack) (index : Nat) {line : List Char}
    (hfeed : '\n' ∉ line) (s : σ) : ∃ shown,
      r.visible (inside s) line = (shown, inside (t.readLine index line s).state) ∧
        r.TurnsOn k shown (stack s) (stack (t.readLine index line s).state) := by
  obtain ⟨calls, d, s', hrun, hd⟩ := h.consumes.exists_run (.ofLine line) s
  obtain ⟨shown, hreveals, hturns⟩ := h.run hrun hfeed
  have hread := hrun.readFrom_eq index
  rw [readFrom_of_atEnd t hd] at hread
  have hstate : (t.readLine index line s).state = s' := congrArg Reading.state hread
  have hend : r.visible (inside s') [] = ([], inside s') := by
    rw [BracketRules.visible, h.carried]
  rw [hd, BracketRules.Reveals, hend, List.append_nil] at hreveals
  exact ⟨shown, hstate ▸ hreveals, hstate ▸ hturns⟩

/-- **And so does the reading of lines.** -/
theorem readLines (h : t.SeesBrackets r k inside stack) {lines : List (List Char)}
    (hfeeds : ∀ line ∈ lines, '\n' ∉ line) (index : Nat) (s : σ) : ∃ shown,
      r.visibleOn (inside s) lines = (shown, inside (t.readLines index lines s).state) ∧
        r.TurnsOn k shown (stack s) (stack (t.readLines index lines s).state) := by
  induction lines generalizing index s with
  | nil => exact ⟨[], rfl, .nil _⟩
  | cons line lines ih =>
    rw [List.forall_mem_cons] at hfeeds
    obtain ⟨first, hfirst, hturns⟩ := h.readLine index hfeeds.1 s
    obtain ⟨more, hmore, hturns'⟩ := ih hfeeds.2 (index + 1) (t.readLine index line s).state
    have hfailure := (h.consumes.readLine_tiles index line s).1
    simp only [Tokenizer.readLines, hfailure]
    refine ⟨first ++ more, ?_, hturns.append hturns'⟩
    simp only [BracketRules.visibleOn, hfirst, hmore]

/-- **Balanced lines** are read without a failure from code back to code, and
the stack is the same before and after them. -/
theorem restores (h : t.SeesBrackets r k inside stack) {lines : List (List Char)}
    (hlines : r.Balanced lines) (hs : inside s = .code) (index : Nat) :
    (t.readLines index lines s).failure = none ∧
      inside (t.readLines index lines s).state = .code ∧
      stack (t.readLines index lines s).state = stack s := by
  obtain ⟨shown, hvisible, hturns⟩ := h.readLines hlines.feedless index s
  rw [hs] at hvisible
  have hnested := hlines.nested
  have hends := hlines.ends
  rw [hvisible] at hnested hends
  exact ⟨(h.consumes.readLines_line lines index s).1, hends, hnested.restores hturns⟩

end SeesBrackets

end Tokenizer

/-- Blanks show nothing. -/
theorem BracketRules.reveals_blanks {r : BracketRules} {c d : Cursor}
    (hblank : ∀ x ∈ r.specials, isBlank x = false) (h : c.readBlanks? = some d) :
    r.Reveals .code c.rest [] .code d.rest := by
  unfold Cursor.readBlanks? Cursor.readWhile? at h
  split at h
  · obtain rfl := Option.some.inj h
    exact (Skips.run hblank c.rest).reveals
  · simp at h

/-- What the lexemes of a language have to do with its brackets: where the
characters that tell a lexeme end, and which brackets it shows. -/
structure BracketLexemes (α : Type) where
  rules : BracketRules
  inside : α → Inside
  Shows : α → List Char → Prop

namespace BracketLexemes

variable {α : Type} (v : BracketLexemes α) {text : List Char} {l : α} {n : Nat}

/-- The text begins with a lexeme of as many characters. -/
def Begins (text : List Char) (l : α) (n : Nat) : Prop :=
  ∃ shown, v.Shows l shown ∧ v.rules.Reveals .code text shown (v.inside l) (text.drop n)

/-- The text begins as is said of it: with a lexeme, or with a character that
is none and is not special. -/
def Accounts (text : List Char) : Option (α × Nat) → Prop
  | some (l, n) => v.Begins text l n
  | none => v.rules.Skips text 1

variable {v}

theorem begins_of_skips (hl : v.inside l = .code) (hshows : v.Shows l [])
    (h : v.rules.Skips text n) : v.Begins text l n :=
  ⟨[], hshows, hl ▸ h.reveals⟩

/-- What is shown up to where the construct of the lexeme ends, and done to a
stack, if the lexeme has its part in both. -/
theorem Begins.call {β : Type} {k : BracketStack β} {stack stack' : List β} {j : Inside}
    {rest : List Char} (h : v.Begins text l n)
    (hend : ∀ shown, v.Shows l shown → v.rules.Reveals (v.inside l) (text.drop n) [] j rest ∧
      v.rules.TurnsOn k shown stack stack') :
    ∃ shown, v.rules.Reveals .code text shown j rest ∧ v.rules.TurnsOn k shown stack stack' := by
  obtain ⟨shown, hshows, hreveals⟩ := h
  obtain ⟨hend, hturns⟩ := hend shown hshows
  have hall := hreveals.trans hend
  rw [List.append_nil] at hall
  exact ⟨shown, hall, hturns⟩

/-- A test of the text is gone through branch by branch. -/
theorem Accounts.ite {p : Prop} [Decidable p] {a b : Option (α × Nat)}
    (hthen : p → v.Accounts text a) (helse : ¬ p → v.Accounts text b) :
    v.Accounts text (if p then a else b) := by
  split
  · exact hthen ‹_›
  · exact helse ‹_›

end BracketLexemes

/-! ## Scripts -/

namespace Script

variable {text : List Char} {l : Lexeme} {n : Nat} {shown : List Char}

/-- The brackets of scripts. -/
def bracketRules : BracketRules where
  pairs := [('(', ')'), ('[', ']'), ('\x7b', '\x7d')]
  marks := ['\x22', '\x27', templateMark]
  lineComments := true
  distinct := by decide

/-- Their open brackets. -/
def bracketStack : BracketStack Bracket where
  closer := Bracket.closer
  close := closeBracket
  close_closer := fun _ _ => if_pos rfl

/-- Where the text before a state ends. -/
def Zone.inside : Zone → Inside
  | code => .code
  | comment => .comment
  | template => .quoted templateMark

/-- What lexemes have to do with the brackets. -/
def bracketLexemes : BracketLexemes Lexeme where
  rules := bracketRules
  inside
    | .blockComment => .comment
    | .quote mark => .quoted mark
    | .template => .quoted templateMark
    | .lineComment | .number | .word | .opening _ | .closing _ | .dot | .punctuation
    | .operator => .code
  Shows
    | .opening closer, shown => ∃ b, (b, closer) ∈ bracketRules.pairs ∧ shown = [b]
    | .closing b, shown => b ∈ bracketRules.pairs.map Prod.snd ∧ shown = [b]
    | .quote mark, shown => (mark = '\x22' ∨ mark = '\x27') ∧ shown = []
    | .lineComment, shown | .blockComment, shown | .template, shown | .number, shown
    | .word, shown | .dot, shown | .punctuation, shown | .operator, shown => shown = []

theorem begins_slashLexeme (hfeed : '\n' ∉ text) :
    bracketLexemes.Begins ('/' :: text) (slashLexeme text).1 (slashLexeme text).2 := by
  unfold slashLexeme
  split
  · rename_i text
    refine ⟨[], rfl, ?_⟩
    have hnone : ('/' :: '/' :: text).drop (2 + runLength (· != '\n') text) = [] := by
      rw [runLength_of_feedless fun h => hfeed (List.mem_cons_of_mem _ h), List.drop_eq_nil_iff]
      simp
      omega
    dsimp only
    rw [hnone]
    exact BracketRules.reveals_lineComment rfl
  · exact ⟨[], rfl, BracketRules.reveals_blockComment⟩
  · rename_i hline hblock
    refine ⟨[], rfl, BracketRules.reveals_slash ?_ fun _ => ?_⟩
    · intro hhead
      obtain ⟨rest, rfl⟩ := List.head?_eq_some_iff.mp hhead
      exact hblock rest rfl
    · intro hhead
      obtain ⟨rest, rfl⟩ := List.head?_eq_some_iff.mp hhead
      exact hline rest rfl

theorem skips_numberTail (text : List Char) : bracketRules.Skips text (numberTail text) := by
  have hrun := BracketRules.Skips.run (r := bracketRules) (p := isNumberChar) (by decide)
  unfold numberTail
  dsimp only
  split
  · rename_i fraction hdrop
    rw [Nat.add_assoc]
    refine (hrun text).add ?_
    rw [hdrop]
    exact (hrun fraction).cons (by decide)
  · exact hrun text

theorem begins_dotLexeme (text : List Char) :
    bracketLexemes.Begins ('.' :: text) (dotLexeme text).1 (dotLexeme text).2 := by
  unfold dotLexeme
  split
  · rename_i c text
    split
    · rename_i hdigit
      have hc : c ∉ bracketRules.specials :=
        BracketRules.not_special (p := Char.isDigit) (by decide) hdigit
      refine BracketLexemes.begins_of_skips rfl rfl ?_
      have hrun := BracketRules.Skips.run (r := bracketRules) (p := isNumberChar) (by decide) text
      have hskips := (hrun.cons hc).cons (c := '.') (by decide)
      rwa [← Nat.add_assoc] at hskips
    · exact BracketLexemes.begins_of_skips rfl rfl (.one (by decide) _)
  · exact BracketLexemes.begins_of_skips rfl rfl (.one (by decide) _)

/-- **A lexeme shows the brackets of its text**, and where there is none
there are no brackets. -/
theorem accounts_lexeme? (hfeed : '\n' ∉ text) : bracketLexemes.Accounts text (lexeme? text) := by
  have hdigits : ∀ x ∈ bracketRules.specials, x.isDigit = false := by decide
  have hwords : ∀ x ∈ bracketRules.specials, isWordStart x = false := by decide
  have hoperators : ∀ x ∈ bracketRules.specials, isOperatorChar x = false := by decide
  cases text with
  | nil => exact fun x hx => by simp at hx
  | cons c text =>
    rw [List.mem_cons, not_or] at hfeed
    rw [lexeme?]
    refine .ite (fun hslash => ?slash) fun hslash =>
      .ite (fun hquote => ?quote) fun hquote =>
      .ite (fun htemplate => ?template) fun htemplate =>
      .ite (fun hdigit => ?digit) fun _ =>
      .ite (fun hdot => ?dot) fun _ =>
      .ite (fun hword => ?word) fun _ =>
      .ite (fun hoperator => ?operator) fun _ =>
      .ite (fun hpunctuation => ?punctuation) fun _ =>
      .ite (fun hclosing => ?closing) fun hclosing => ?opening
    case slash =>
      obtain rfl := eq_of_beq hslash
      exact begins_slashLexeme hfeed.2
    case quote =>
      simp only [Bool.or_eq_true, beq_iff_eq] at hquote
      refine ⟨[], ⟨hquote, rfl⟩, BracketRules.reveals_mark ?_⟩
      rcases hquote with rfl | rfl <;> decide
    case template =>
      obtain rfl := eq_of_beq htemplate
      exact ⟨[], rfl, BracketRules.reveals_mark (by decide)⟩
    case digit =>
      have hc := BracketRules.not_special hdigits hdigit
      exact BracketLexemes.begins_of_skips rfl rfl ((skips_numberTail text).cons hc)
    case dot =>
      obtain rfl := eq_of_beq hdot
      exact begins_dotLexeme text
    case word =>
      have hc := BracketRules.not_special hwords hword
      have hrun := BracketRules.Skips.run (r := bracketRules) (p := isWordChar) (by decide) text
      exact BracketLexemes.begins_of_skips rfl rfl (hrun.cons hc)
    case operator =>
      have hc := BracketRules.not_special hoperators hoperator
      exact BracketLexemes.begins_of_skips rfl rfl
        ((BracketRules.Skips.run hoperators text).cons hc)
    case punctuation =>
      have hc : c ∉ bracketRules.specials :=
        BracketRules.not_special (p := ";,:?".toList.contains) (by decide) hpunctuation
      exact BracketLexemes.begins_of_skips rfl rfl (.one hc text)
    case closing =>
      have hc : c ∈ bracketRules.pairs.map Prod.snd := by
        have hclosers : ∀ x ∈ "\x7d)]".toList, x ∈ bracketRules.pairs.map Prod.snd := by decide
        exact hclosers c (List.contains_iff_mem.mp hclosing)
      exact ⟨[c], ⟨hc, rfl⟩, BracketRules.reveals_bracket (List.mem_append_right _ hc)⟩
    case opening =>
      cases hcloser : closerOf? c with
      | some closer =>
        have hpair : (c, closer) ∈ bracketRules.pairs := by
          unfold closerOf? at hcloser
          split at hcloser <;> simp at hcloser <;> subst hcloser <;> decide
        have hc : c ∈ bracketRules.pairs.map Prod.fst :=
          List.mem_map_of_mem (f := Prod.fst) hpair
        exact ⟨[c], ⟨c, hpair, rfl⟩, BracketRules.reveals_bracket (List.mem_append_left _ hc)⟩
      | none =>
        -- the characters that are special have all been met before
        have hspecial : ∀ x ∈ bracketRules.specials, (x == '/') = true ∨
            (x == '\x22' || x == '\x27') = true ∨ (x == templateMark) = true ∨
            "\x7d)]".toList.contains x = true ∨ (closerOf? x).isSome = true := by decide
        refine .one (fun hc => ?_) text
        rcases hspecial c hc with h | h | h | h | h
        · exact hslash h
        · exact hquote h
        · exact htemplate h
        · exact hclosing h
        · simp [hcloser] at h

theorem reveals_inComment (c : Cursor) (s : State) :
    bracketRules.Reveals .comment c.rest [] (inComment c s).state.zone.inside
      (inComment c s).cursor.rest := by
  simp only [inComment, apply_ite Zone.inside]
  exact BracketRules.reveals_comment c.rest

theorem reveals_inTemplate (c : Cursor) (s : State) :
    bracketRules.Reveals (.quoted templateMark) c.rest [] (inTemplate c s).state.zone.inside
      (inTemplate c s).cursor.rest := by
  simp only [inTemplate, apply_ite Zone.inside]
  exact BracketRules.reveals_quoted (by decide) c.rest

/-- **The end of a token** is where the construct of the lexeme ends, and the
lexeme turns the open brackets as it says. -/
theorem finish_shows (c : Cursor) {s : State} (hs : s.zone = .code)
    (h : bracketLexemes.Shows l shown) :
    bracketRules.Reveals (bracketLexemes.inside l) c.rest [] (finish l c s).state.zone.inside
        (finish l c s).cursor.rest ∧
      bracketRules.TurnsOn bracketStack shown s.brackets (finish l c s).state.brackets := by
  have hcode : s.zone.inside = .code := congrArg Zone.inside hs
  cases l with
  | blockComment =>
    obtain rfl : shown = [] := h
    exact ⟨reveals_inComment c s, .nil _⟩
  | template =>
    obtain rfl : shown = [] := h
    exact ⟨reveals_inTemplate c _, .nil _⟩
  | quote mark =>
    obtain ⟨hmark, rfl⟩ := h
    refine ⟨?_, .nil _⟩
    have hstring : bracketRules.Reveals (.quoted mark) c.rest [] .code _ :=
      BracketRules.reveals_string hmark c.rest
    rwa [← hcode] at hstring
  | opening closer =>
    obtain ⟨b, hpair, rfl⟩ := h
    refine ⟨hcode.symm ▸ .refl, .single ?_⟩
    rw [BracketRules.Turns, if_pos (List.mem_map_of_mem (f := Prod.fst) hpair)]
    exact ⟨⟨closer, s.lineIndent⟩, hpair, rfl⟩
  | closing b =>
    obtain ⟨hb, rfl⟩ := h
    have hcloser : b ∉ bracketRules.pairs.map Prod.fst := by
      obtain ⟨_, hpair, rfl⟩ := List.mem_map.mp hb
      exact (BracketRules.pair_distinct hpair).2
    refine ⟨hcode.symm ▸ .refl, .single ?_⟩
    rw [BracketRules.Turns, if_neg hcloser]
    rfl
  | lineComment | number | word | dot | punctuation | operator =>
    obtain rfl : shown = [] := h
    exact ⟨hcode.symm ▸ .refl, .nil _⟩

/-- **The script tokenizer sees the brackets of its text.** -/
theorem seesBrackets (o : Options) :
    (tokenizer o).SeesBrackets bracketRules bracketStack (·.zone.inside) State.brackets where
  consumes := tokenizer_consumes o
  carried s := by cases s.zone <;> simp [Zone.inside, Inside.nextLine]
  call c s hrest hfeed := by
    change ∃ shown, bracketRules.Reveals s.zone.inside c.rest shown (token c s).state.zone.inside
        (token c s).cursor.rest ∧
      bracketRules.TurnsOn bracketStack shown s.brackets (token c s).state.brackets
    unfold token
    cases hzone : s.zone with
    | comment => exact ⟨[], reveals_inComment c (enter c s), .nil _⟩
    | template => exact ⟨[], reveals_inTemplate c (enter c s), .nil _⟩
    | code =>
      have hcode : Zone.inside (enter c s).zone = .code := congrArg Zone.inside hzone
      dsimp only [inCode]
      cases hblanks : c.readBlanks? with
      | some d =>
        exact ⟨[], hcode.symm ▸ BracketRules.reveals_blanks (by decide) hblanks, .nil _⟩
      | none =>
        have haccounts := accounts_lexeme? hfeed
        cases hlexeme : lexeme? c.rest with
        | some found =>
          obtain ⟨l, width⟩ := found
          rw [hlexeme] at haccounts
          exact BracketLexemes.Begins.call haccounts fun shown hshows =>
            finish_shows (c.read width) (s := enter c s) hzone hshows
        | none =>
          rw [hlexeme] at haccounts
          cases hnext : c.next? with
          | none => exact absurd (next?_eq_none hnext) hrest
          | some found =>
            obtain ⟨-, hread⟩ := next?_eq_some hnext
            refine ⟨[], ?_, .nil _⟩
            dsimp only
            rw [hread]
            exact hcode.symm ▸ haccounts.reveals

end Script

/-! ## Stylesheets -/

namespace Stylesheet

variable {text : List Char} {l : Lexeme} {n : Nat} {shown : List Char}

/-- The brackets of stylesheets, where square brackets are operators. -/
def bracketRules : BracketRules where
  pairs := [('(', ')'), ('\x7b', '\x7d')]
  marks := ['\x22', '\x27']
  lineComments := false
  distinct := by decide

/-- Their open brackets. -/
def bracketStack : BracketStack Nest where
  closer nest := nest.kind.closer
  close b nests := if b = ')' then closeParen nests else closeBrace nests
  close_closer top outer := by
    cases hkind : top.kind <;> simp [NestKind.closer, closeParen, closeBrace, hkind]

/-- Where the text before a state ends. -/
def Zone.inside : Zone → Inside
  | rules => .code
  | comment => .comment

/-- What lexemes have to do with the brackets. -/
def bracketLexemes : BracketLexemes Lexeme where
  rules := bracketRules
  inside
    | .comment => .comment
    | .quote mark => .quoted mark
    | .number | .hash | .atKeyword | .ident | .className | .important | .openBrace | .closeBrace
    | .openParen | .closeParen | .colon | .semicolon | .comma | .operator => .code
  Shows
    | .openBrace, shown => shown = ['\x7b']
    | .closeBrace, shown => shown = ['\x7d']
    | .openParen, shown => shown = ['(']
    | .closeParen, shown => shown = [')']
    | .quote mark, shown => (mark = '\x22' ∨ mark = '\x27') ∧ shown = []
    | .comment, shown | .number, shown | .hash, shown | .atKeyword, shown | .ident, shown
    | .className, shown | .important, shown | .colon, shown | .semicolon, shown | .comma, shown
    | .operator, shown => shown = []

theorem skips_quantity {p : Char → Bool} (hp : ∀ x ∈ bracketRules.specials, p x = false)
    (text : List Char) : bracketRules.Skips text (quantityLength p text) :=
  (BracketRules.Skips.run hp text).add (.run (by decide) _)

theorem skips_unsignedLength? (h : unsignedLength? text = some n) : bracketRules.Skips text n := by
  unfold unsignedLength? at h
  split at h
  · split at h
    · obtain rfl := Option.some.inj h
      exact (skips_quantity (by decide) _).cons (by decide)
    · simp at h
  · split at h
    · rename_i hdigit
      obtain rfl := Option.some.inj h
      exact (skips_quantity (by decide) _).cons
        (BracketRules.not_special (p := Char.isDigit) (by decide) hdigit)
    · simp at h
  · simp at h

theorem skips_nameLength? (h : nameLength? text = some n) : bracketRules.Skips text n := by
  unfold nameLength? at h
  split at h
  · split at h
    · rename_i hstart
      obtain rfl := Option.some.inj h
      exact (BracketRules.Skips.run (by decide) _).cons
        (BracketRules.not_special (by decide) hstart)
    · simp at h
  · simp at h

theorem accounts_hyphenLexeme? (text : List Char) :
    bracketLexemes.Accounts ('-' :: text) (hyphenLexeme? text) := by
  have hhyphen : '-' ∉ bracketRules.specials := by decide
  unfold hyphenLexeme?
  split
  · rename_i hnumber
    exact BracketLexemes.begins_of_skips rfl rfl ((skips_unsignedLength? hnumber).cons hhyphen)
  · rename_i hname
    exact BracketLexemes.begins_of_skips rfl rfl ((skips_nameLength? hname).cons hhyphen)
  · rename_i more _ _
    cases hname : nameLength? more with
    | none => exact .one hhyphen _
    | some n =>
      have hskips := ((skips_nameLength? hname).cons hhyphen).cons hhyphen
      rw [← Nat.add_assoc] at hskips
      exact BracketLexemes.begins_of_skips rfl rfl hskips
  · exact .one hhyphen _

/-- Behind a mark, a first character of a name and then others. -/
theorem skips_marked {mark c : Char} (hmark : mark ∉ bracketRules.specials)
    (hc : (isNameStart c || c == '-') = true) (more : List Char) :
    bracketRules.Skips (mark :: c :: more) (2 + runLength isNameChar more) := by
  have hfirst : c ∉ bracketRules.specials :=
    BracketRules.not_special (p := fun c => isNameStart c || c == '-') (by decide) hc
  have hrun := BracketRules.Skips.run (r := bracketRules) (p := isNameChar) (by decide) more
  have hskips := (hrun.cons hfirst).cons hmark
  rwa [← Nat.add_assoc] at hskips

theorem accounts_dotLexeme? (text : List Char) :
    bracketLexemes.Accounts ('.' :: text) (dotLexeme? text) := by
  have hdot : '.' ∉ bracketRules.specials := by decide
  unfold dotLexeme?
  split
  · rename_i hnumber
    exact BracketLexemes.begins_of_skips rfl rfl (skips_unsignedLength? hnumber)
  · split
    · rename_i hname
      exact BracketLexemes.begins_of_skips rfl rfl (skips_marked hdot hname _)
    · exact .one hdot _
  · exact .one hdot _

theorem accounts_atLexeme? (text : List Char) :
    bracketLexemes.Accounts ('@' :: text) (atLexeme? text) := by
  have hat : '@' ∉ bracketRules.specials := by decide
  unfold atLexeme?
  split
  · split
    · rename_i hname
      exact BracketLexemes.begins_of_skips rfl rfl (skips_marked hat hname _)
    · exact .one hat _
  · exact .one hat _

theorem accounts_markLexeme? (text : List Char) :
    bracketLexemes.Accounts ('!' :: text) (markLexeme? text) := by
  have hmark : '!' ∉ bracketRules.specials := by decide
  simp only [markLexeme?]
  split
  · rename_i hword
    obtain ⟨more, hmore⟩ := List.isPrefixOf_iff_prefix.mp hword
    have hgap : bracketRules.Skips text (runLength (fun c => c == ' ' || c == '\t') text) :=
      .run (by decide) text
    refine BracketLexemes.begins_of_skips rfl rfl ?_
    rw [Nat.add_assoc]
    refine (hgap.add ?_).cons hmark
    rw [BracketRules.Skips, ← hmore, List.take_left]
    decide
  · exact .one hmark text

theorem accounts_hashLexeme? (text : List Char) :
    bracketLexemes.Accounts ('#' :: text) (hashLexeme? text) := by
  have hhash : '#' ∉ bracketRules.specials := by decide
  simp only [hashLexeme?]
  split
  · have hrun := BracketRules.Skips.run (r := bracketRules) (p := isNameChar) (by decide) text
    exact BracketLexemes.begins_of_skips rfl rfl (hrun.cons hhash)
  · exact .one hhash text

/-- The lexemes of one character are the brackets and characters that are not
special, but for a slash, which begins no comment. -/
theorem accounts_charLexeme? {c : Char} (hblock : ¬ (c = '/' ∧ text.head? = some '*'))
    (hquote : c ∉ bracketRules.marks) :
    bracketLexemes.Accounts (c :: text) ((charLexeme? c).map fun l => (l, 1)) := by
  unfold charLexeme?
  split
  · exact ⟨_, rfl, BracketRules.reveals_bracket (by decide)⟩
  · exact ⟨_, rfl, BracketRules.reveals_bracket (by decide)⟩
  · exact ⟨_, rfl, BracketRules.reveals_bracket (by decide)⟩
  · exact ⟨_, rfl, BracketRules.reveals_bracket (by decide)⟩
  · exact BracketLexemes.begins_of_skips rfl rfl (.one (by decide) text)
  · exact BracketLexemes.begins_of_skips rfl rfl (.one (by decide) text)
  · exact BracketLexemes.begins_of_skips rfl rfl (.one (by decide) text)
  · rename_i hopenBrace hcloseBrace hopenParen hcloseParen _ _ _
    by_cases hslash : c = '/'
    · subst hslash
      exact ⟨[], rfl, BracketRules.reveals_slash (fun hhead => hblock ⟨rfl, hhead⟩)
        (by simp [bracketLexemes, bracketRules])⟩
    · have hc : c ∉ bracketRules.specials := by
        simp [BracketRules.specials, BracketRules.brackets, bracketRules] at hquote ⊢
        exact ⟨hslash, hquote.1, hquote.2, hopenParen, hopenBrace, hcloseParen, hcloseBrace⟩
      split
      · exact BracketLexemes.begins_of_skips rfl rfl (.one hc text)
      · exact .one hc text

/-- **A lexeme shows the brackets of its text**, and where there is none
there are no brackets. -/
theorem accounts_lexeme? (text : List Char) :
    bracketLexemes.Accounts text (lexeme? text) := by
  cases text with
  | nil => exact fun x hx => by simp at hx
  | cons c text =>
    rw [lexeme?]
    refine .ite (fun hcomment => ?comment) fun hcomment =>
      .ite (fun hquote => ?quote) fun hquote =>
      .ite (fun hhyphen => ?hyphen) fun _ =>
      .ite (fun hdot => ?dot) fun _ =>
      .ite (fun hmark => ?mark) fun _ =>
      .ite (fun hhash => ?hash) fun _ =>
      .ite (fun hat => ?keyword) fun _ =>
      .ite (fun hdigit => ?digit) fun _ =>
      .ite (fun hname => ?name) fun _ => ?char
    case comment =>
      simp only [Bool.and_eq_true, beq_iff_eq] at hcomment
      obtain ⟨rfl, hhead⟩ := hcomment
      obtain ⟨more, rfl⟩ := List.head?_eq_some_iff.mp hhead
      exact ⟨[], rfl, BracketRules.reveals_blockComment⟩
    case quote =>
      simp only [Bool.or_eq_true, beq_iff_eq] at hquote
      refine ⟨[], ⟨hquote, rfl⟩, BracketRules.reveals_mark ?_⟩
      rcases hquote with rfl | rfl <;> decide
    case hyphen =>
      obtain rfl := eq_of_beq hhyphen
      exact accounts_hyphenLexeme? text
    case dot =>
      obtain rfl := eq_of_beq hdot
      exact accounts_dotLexeme? text
    case mark =>
      obtain rfl := eq_of_beq hmark
      exact accounts_markLexeme? text
    case hash =>
      obtain rfl := eq_of_beq hhash
      exact accounts_hashLexeme? text
    case keyword =>
      obtain rfl := eq_of_beq hat
      exact accounts_atLexeme? text
    case digit =>
      have hc : c ∉ bracketRules.specials :=
        BracketRules.not_special (p := Char.isDigit) (by decide) hdigit
      cases hnumber : unsignedLength? (c :: text) with
      | none => exact .one hc text
      | some n => exact BracketLexemes.begins_of_skips rfl rfl (skips_unsignedLength? hnumber)
    case name =>
      have hc : c ∉ bracketRules.specials := BracketRules.not_special (by decide) hname
      cases hident : nameLength? (c :: text) with
      | none => exact .one hc text
      | some n => exact BracketLexemes.begins_of_skips rfl rfl (skips_nameLength? hident)
    case char =>
      refine accounts_charLexeme? (by simpa using hcomment) ?_
      simpa [bracketRules] using hquote

theorem reveals_inComment (c : Cursor) (s : State) :
    bracketRules.Reveals .comment c.rest [] (inComment c s).state.zone.inside
      (inComment c s).cursor.rest := by
  simp only [inComment, apply_ite Zone.inside]
  exact BracketRules.reveals_comment c.rest

/-- **A lexeme opens and closes** what it shows. -/
theorem turnsOn_afterLexeme (s : State) (h : bracketLexemes.Shows l shown) :
    bracketRules.TurnsOn bracketStack shown s.nests (afterLexeme l s).nests := by
  cases l with
  | openBrace =>
    obtain rfl : shown = ['\x7b'] := h
    refine .single ?_
    rw [BracketRules.Turns, if_pos (by decide)]
    refine ⟨⟨if s.inPrelude then .atRule else .rule, s.lineIndent⟩, ?_, rfl⟩
    have hcloser : NestKind.closer (if s.inPrelude then .atRule else .rule) = '\x7d' := by
      cases s.inPrelude <;> rfl
    change ('\x7b', NestKind.closer _) ∈ bracketRules.pairs
    rw [hcloser]
    decide
  | openParen =>
    obtain rfl : shown = ['('] := h
    refine .single ?_
    rw [BracketRules.Turns, if_pos (by decide)]
    have hpair : ('(', ')') ∈ bracketRules.pairs := by decide
    exact ⟨⟨.parens, s.lineIndent⟩, hpair, rfl⟩
  | closeBrace =>
    obtain rfl : shown = ['\x7d'] := h
    refine .single ?_
    rw [BracketRules.Turns, if_neg (by decide)]
    rfl
  | closeParen =>
    obtain rfl : shown = [')'] := h
    refine .single ?_
    rw [BracketRules.Turns, if_neg (by decide)]
    rfl
  | quote mark =>
    obtain ⟨-, rfl⟩ := h
    exact .nil _
  | colon =>
    obtain rfl : shown = [] := h
    have hnests : (afterLexeme .colon s).nests = s.nests := by
      simp only [afterLexeme]
      split <;> rfl
    exact hnests.symm ▸ .nil _
  | comment | number | hash | atKeyword | ident | className | important | semicolon | comma
  | operator =>
    obtain rfl : shown = [] := h
    exact .nil _

theorem zone_afterLexeme (l : Lexeme) (s : State) : (afterLexeme l s).zone = s.zone := by
  cases l with
  | colon =>
    simp only [afterLexeme]
    split <;> rfl
  | _ => rfl

/-- **The end of a token** is where the construct of the lexeme ends, and the
lexeme turns the open brackets as it says. -/
theorem finish_shows (c : Cursor) {s : State} (hs : s.zone = .rules)
    (h : bracketLexemes.Shows l shown) :
    bracketRules.Reveals (bracketLexemes.inside l) c.rest [] (finish l c s).state.zone.inside
        (finish l c s).cursor.rest ∧
      bracketRules.TurnsOn bracketStack shown s.nests (finish l c s).state.nests := by
  have hcode : (afterLexeme l s).zone.inside = .code :=
    congrArg Zone.inside ((zone_afterLexeme l s).trans hs)
  have hturns := turnsOn_afterLexeme s h
  cases l with
  | comment =>
    obtain rfl : shown = [] := h
    exact ⟨reveals_inComment c s, .nil _⟩
  | quote mark =>
    have hmark : mark = '\x22' ∨ mark = '\x27' := h.1
    have hstring : bracketRules.Reveals (.quoted mark) c.rest [] .code _ :=
      BracketRules.reveals_string hmark c.rest
    exact ⟨hcode.symm ▸ hstring, hturns⟩
  | number | hash | atKeyword | ident | className | important | openBrace | closeBrace | openParen
  | closeParen | colon | semicolon | comma | operator =>
    exact ⟨hcode.symm ▸ .refl, hturns⟩

/-- **The stylesheet tokenizer sees the brackets of its text.** -/
theorem seesBrackets (o : Options) :
    (tokenizer o).SeesBrackets bracketRules bracketStack (·.zone.inside) State.nests where
  consumes := tokenizer_consumes o
  carried s := by cases s.zone <;> rfl
  call c s _ _ := by
    change ∃ shown, bracketRules.Reveals s.zone.inside c.rest shown (token c s).state.zone.inside
        (token c s).cursor.rest ∧
      bracketRules.TurnsOn bracketStack shown s.nests (token c s).state.nests
    unfold token
    cases hzone : s.zone with
    | comment => exact ⟨[], reveals_inComment c (enter c s), .nil _⟩
    | rules =>
      have hcode : Zone.inside (enter c s).zone = .code := congrArg Zone.inside hzone
      dsimp only [inRules]
      cases hblanks : c.readBlanks? with
      | some d =>
        exact ⟨[], hcode.symm ▸ BracketRules.reveals_blanks (by decide) hblanks, .nil _⟩
      | none =>
        have haccounts := accounts_lexeme? c.rest
        cases hlexeme : lexeme? c.rest with
        | some found =>
          obtain ⟨l, width⟩ := found
          rw [hlexeme] at haccounts
          exact BracketLexemes.Begins.call haccounts fun shown hshows =>
            finish_shows (c.read width) (s := enter c s) hzone hshows
        | none =>
          rw [hlexeme] at haccounts
          exact ⟨[], hcode.symm ▸ haccounts.reveals, .nil _⟩

end Stylesheet

/-! ## Back to where they were -/

/-- The indentation of a script comes from what is open and from the column of
its own lines. -/
theorem Script.indent_eq_of_same {unit : Nat} {s s' : Script.State} (hzone : s'.zone = s.zone)
    (hbrackets : s'.brackets = s.brackets) (hbase : s'.baseIndent = s.baseIndent)
    (text : List Char) : Script.indent unit s' text = Script.indent unit s text := by
  simp only [Script.indent, hzone, hbrackets, hbase]

/-- And so does that of a stylesheet. -/
theorem Stylesheet.indent_eq_of_same {unit : Nat} {s s' : Stylesheet.State}
    (hzone : s'.zone = s.zone) (hnests : s'.nests = s.nests) (hbase : s'.baseIndent = s.baseIndent)
    (text : List Char) : Stylesheet.indent unit s' text = Stylesheet.indent unit s text := by
  simp only [Stylesheet.indent, hzone, hnests, hbase]

/-- **Well nested brackets leave nothing behind.** Take lines whose brackets
outside strings, comments and templates are well nested, and the last of which
ends outside comments and templates. Read by the script tokenizer from any
state in code, they leave the open brackets as they were, and whatever line
comes next is indented as it would have been before them. The same holds of
stylesheets, with their own brackets, comments and strings. -/
theorem brackets_restored (o : Options) (lines : List (List Char)) (index : Nat) :
    (Script.bracketRules.Balanced lines → ∀ s : Script.State, s.zone = .code →
      let r := (Script.tokenizer o).readLines index lines s
      r.failure = none ∧ r.state.zone = .code ∧ r.state.brackets = s.brackets ∧
        ∀ text, (Script.tokenizer o).indent r.state text = (Script.tokenizer o).indent s text) ∧
    (Stylesheet.bracketRules.Balanced lines → ∀ s : Stylesheet.State, s.zone = .rules →
      let r := (Stylesheet.tokenizer o).readLines index lines s
      r.failure = none ∧ r.state.zone = .rules ∧ r.state.nests = s.nests ∧
        ∀ text, (Stylesheet.tokenizer o).indent r.state text =
          (Stylesheet.tokenizer o).indent s text) := by
  constructor
  · intro hlines s hs r
    obtain ⟨hfailure, hinside, hbrackets⟩ :=
      (Script.seesBrackets o).restores hlines (s := s) (by rw [hs]; rfl) index
    have hzone : r.state.zone = .code := by
      cases hzone : r.state.zone <;> simp [r, hzone, Script.Zone.inside] at hinside ⊢
    have hbase : r.state.baseIndent = s.baseIndent :=
      Tokenizer.readLines_kept (f := Script.State.baseIndent) Script.baseIndent_token lines index s
    exact ⟨hfailure, hzone, hbrackets,
      Script.indent_eq_of_same (hzone.trans hs.symm) hbrackets hbase⟩
  · intro hlines s hs r
    obtain ⟨hfailure, hinside, hnests⟩ :=
      (Stylesheet.seesBrackets o).restores hlines (s := s) (by rw [hs]; rfl) index
    have hzone : r.state.zone = .rules := by
      cases hzone : r.state.zone <;> simp [r, hzone, Stylesheet.Zone.inside] at hinside ⊢
    have hbase : r.state.baseIndent = s.baseIndent :=
      Tokenizer.readLines_kept (f := Stylesheet.State.baseIndent) Stylesheet.baseIndent_token lines
        index s
    exact ⟨hfailure, hzone, hnests,
      Stylesheet.indent_eq_of_same (hzone.trans hs.symm) hnests hbase⟩

/-- Lines of a script, with brackets of all kinds in a comment of one line, a
string, a comment of two lines and a template of two lines. -/
def guardedScript : List (List Char) :=
  ["f(\x7b // )".toList, "a: \"(\\\"[\", /* (".toList, "' ] */ b: \x60)".toList,
    "\x7d\x60\x7d)".toList]

/-- A rule with brackets in a string and in a comment. -/
def guardedStylesheet : List (List Char) :=
  ["a \x7b b: url(\")\") /* \x7d".toList, "( */ \x7d".toList]

/-- Within a block and within the body of an at-rule. -/
theorem brackets_restored_within_blocks :
    (Script.bracketRules.visibleOn .code guardedScript).1 = "(\x7b\x7d)".toList ∧
      (Stylesheet.bracketRules.visibleOn .code guardedStylesheet).1 = "\x7b()\x7d".toList ∧
      ∀ text,
        (Script.tokenizer {}).indent ((Script.tokenizer {}).readLines 1 guardedScript
          ⟨.code, [⟨'\x7d', 2⟩], 0, 0, .nothing⟩).state text =
            (Script.tokenizer {}).indent ⟨.code, [⟨'\x7d', 2⟩], 0, 0, .nothing⟩ text ∧
        (Stylesheet.tokenizer {}).indent ((Stylesheet.tokenizer {}).readLines 1 guardedStylesheet
          ⟨.rules, [⟨.atRule, 2⟩], false, false, false, 0, 0⟩).state text =
            (Stylesheet.tokenizer {}).indent
              ⟨.rules, [⟨.atRule, 2⟩], false, false, false, 0, 0⟩ text := by
  have hscript : Script.bracketRules.visibleOn .code guardedScript =
      ("(\x7b\x7d)".toList, .code) := by decide +kernel
  have hstyles : Stylesheet.bracketRules.visibleOn .code guardedStylesheet =
      ("\x7b()\x7d".toList, .code) := by decide +kernel
  have hscriptBalanced : Script.bracketRules.Balanced guardedScript := by
    refine ⟨by decide, ?_, by rw [hscript]⟩
    rw [hscript]
    exact @BracketRules.WellNested.nest _ '(' ')' ['\x7b', '\x7d'] [] (by decide)
      (@BracketRules.WellNested.nest _ '\x7b' '\x7d' [] [] (by decide) .nil .nil) .nil
  have hstylesBalanced : Stylesheet.bracketRules.Balanced guardedStylesheet := by
    refine ⟨by decide, ?_, by rw [hstyles]⟩
    rw [hstyles]
    exact @BracketRules.WellNested.nest _ '\x7b' '\x7d' ['(', ')'] [] (by decide)
      (@BracketRules.WellNested.nest _ '(' ')' [] [] (by decide) .nil .nil) .nil
  refine ⟨by rw [hscript], by rw [hstyles], fun text => ⟨?_, ?_⟩⟩
  · exact ((brackets_restored {} guardedScript 1).1 hscriptBalanced _ rfl).2.2.2 text
  · exact ((brackets_restored {} guardedStylesheet 1).2 hstylesBalanced _ rfl).2.2.2 text

end MixedMarkup
