import MixedMarkup.Proofs.RuleIndependence
/-!
# Stylesheets — the flags and the open nests

The state keeps two flags beside the stack of nests: whether the cursor
stands after the colon of a declaration, and whether it stands after that of
a selector. They are set by a colon, but what takes them back and what
changes the stack are other lexemes, and comments, blanks and unknown
characters may come between. The flags fit the stack all the same: a value is
only ever read in the block of a rule, and a pseudo class only outside of one
(`State.FlagsFit`). One lexeme keeps that (`flagsFit_afterLexeme`), hence a
call does, and so does every sequence of calls.

So the style of an identifier tells where it stands
(`identifiers_styled_by_nests`).
-/

namespace MixedMarkup

namespace Tokenizer

variable {σ : Type}

/-- The state that calls leave, one after the other, each at a cursor of its
own. -/
def afterCalls (t : Tokenizer σ) (calls : List Cursor) (s : σ) : σ :=
  calls.foldl (fun s c => (t.token c s).state) s

/-- What every call keeps is kept by all of them. -/
theorem afterCalls_induction {t : Tokenizer σ} {P : σ → Prop} {s : σ}
    (hcall : ∀ (c : Cursor) (s : σ), P s → P (t.token c s).state) (calls : List Cursor) (hs : P s) :
    P (t.afterCalls calls s) := by
  induction calls generalizing s with
  | nil => exact hs
  | cons c calls ih => exact ih (hcall c s hs)

end Tokenizer

namespace Stylesheet

variable {c : Cursor} {s : State} {l : Lexeme}

/-! ## The innermost block -/

/-- Under parentheses only, the innermost nest is the block of a rule. -/
def State.InRule (s : State) : Prop :=
  ∃ parens block outer, s.nests = parens ++ block :: outer ∧
    (∀ nest ∈ parens, nest.kind = .parens) ∧ block.kind = .rule

theorem State.inDeclarations_iff : s.inDeclarations = true ↔ s.InRule := by
  simp only [inDeclarations, InRule, Option.any_eq_true, List.find?_eq_some_iff_append, beq_iff_eq,
    bne_iff_ne, bne_eq_false_iff_eq, Bool.not_eq_true']
  constructor
  · rintro ⟨block, ⟨-, parens, outer, hnests, hparens⟩, hblock⟩
    exact ⟨parens, block, outer, hnests, hparens, hblock⟩
  · rintro ⟨parens, block, outer, hnests, hparens, hblock⟩
    exact ⟨block, ⟨by simp [hblock], parens, outer, hnests, hparens⟩, hblock⟩

theorem State.inDeclarations_eq_false_iff : s.inDeclarations = false ↔ ¬ s.InRule := by
  rw [← inDeclarations_iff, Bool.not_eq_true]

/-- Which block is innermost depends on the nests alone. -/
theorem State.inDeclarations_congr {s' : State} (h : s'.nests = s.nests) :
    s'.inDeclarations = s.inDeclarations := by
  rw [inDeclarations, inDeclarations, h]

/-- An opening parenthesis leaves the innermost block what it was. -/
theorem State.inDeclarations_push_parens (s : State) :
    (s.push .parens).inDeclarations = s.inDeclarations := by
  simp [inDeclarations, push]

/-- So does a closing one, which closes no block. -/
theorem find?_closeParen (nests : List Nest) :
    (closeParen nests).find? (·.kind != .parens) = nests.find? (·.kind != .parens) := by
  cases nests with
  | nil => rfl
  | cons top outer =>
    by_cases htop : top.kind = .parens <;> simp [closeParen, htop]

/-! ## The flags -/

/-- A value is read in the block of a rule, and a pseudo class outside. -/
structure State.FlagsFit (s : State) : Prop where
  inValue : s.inValue = true → s.inDeclarations = true
  pseudo : s.pseudo = true → s.inDeclarations = false

/-- The flags fit in a state with the same flags and nests. -/
theorem State.FlagsFit.congr {s' : State} (h : s.FlagsFit) (hvalue : s'.inValue = s.inValue)
    (hpseudo : s'.pseudo = s.pseudo) (hnests : s'.nests = s.nests) : s'.FlagsFit where
  inValue := by rw [hvalue, inDeclarations_congr hnests]; exact h.inValue
  pseudo := by rw [hpseudo, inDeclarations_congr hnests]; exact h.pseudo

theorem State.flagsFit_initial (baseIndent : Nat) : (initial baseIndent).FlagsFit :=
  ⟨by simp [initial], by simp [initial]⟩

/-- **A lexeme keeps the flags in step with the nests.** Braces end a value,
parentheses leave the innermost block alone, and a colon asks for it. -/
theorem flagsFit_afterLexeme (l : Lexeme) (h : s.FlagsFit) : (afterLexeme l s).FlagsFit := by
  cases l with
  | openBrace | closeBrace => exact ⟨by simp [afterLexeme], by simp [afterLexeme, State.push]⟩
  | semicolon => exact ⟨by simp [afterLexeme], by simp [afterLexeme]⟩
  | openParen =>
    refine ⟨fun hvalue => ?_, by simp [afterLexeme, State.push]⟩
    rw [afterLexeme, State.inDeclarations_push_parens]
    exact h.inValue hvalue
  | closeParen =>
    refine ⟨fun hvalue => ?_, by simp [afterLexeme]⟩
    rw [State.inDeclarations, afterLexeme, find?_closeParen]
    exact h.inValue hvalue
  | colon =>
    cases hdecl : s.inDeclarations with
    | true =>
      have hafter : afterLexeme .colon s = { s with pseudo := false, inValue := true } :=
        if_pos hdecl
      rw [hafter]
      exact ⟨fun _ => hdecl, by simp⟩
    | false =>
      have hafter : afterLexeme .colon s = { s with pseudo := true } :=
        if_neg (by rw [Bool.not_eq_true]; exact hdecl)
      rw [hafter]
      exact ⟨h.inValue, fun _ => hdecl⟩
  | comment | quote | number | hash | atKeyword | ident | className | important | comma
  | operator => exact ⟨h.inValue, by simp [afterLexeme]⟩

/-- The end of a token does so too; a comment leaves both alone. -/
theorem flagsFit_finish (l : Lexeme) (c : Cursor) (h : s.FlagsFit) :
    (finish l c s).state.FlagsFit := by
  have hafter := flagsFit_afterLexeme l h
  cases l with
  | comment => exact h.congr rfl rfl rfl
  | _ => exact hafter

/-- **A call keeps the flags in step with the nests**, wherever it is made. -/
theorem flagsFit_token (c : Cursor) (h : s.FlagsFit) : (token c s).state.FlagsFit := by
  have henter : (enter c s).FlagsFit := h.congr rfl rfl rfl
  unfold token
  cases s.zone with
  | comment => exact henter.congr rfl rfl rfl
  | rules =>
    dsimp only [inRules]
    cases c.readBlanks? with
    | some d => exact henter
    | none =>
      cases lexeme? c.rest with
      | some found => exact flagsFit_finish found.1 (c.read found.2) henter
      | none => exact henter

/-! ## Identifiers -/

/-- A call reads the lexeme that is there. -/
theorem token_of_lexemeAt (h : lexemeAt c s = some l) :
    ∃ width, token c s = finish l (c.read width) (enter c s) := by
  unfold lexemeAt at h
  cases hzone : s.zone with
  | comment => simp [hzone] at h
  | rules =>
    cases hblanks : c.readBlanks? with
    | some d => simp [hzone, hblanks] at h
    | none =>
      simp only [hzone, hblanks, Option.map_eq_some_iff] at h
      obtain ⟨⟨_, width⟩, hlexeme, rfl⟩ := h
      exact ⟨width, by simp only [token, hzone, inRules, hblanks, hlexeme]⟩

/-- **Where the flags fit, the style of an identifier** tells whether the
innermost block is that of a rule. -/
theorem identStyle_cases (h : s.FlagsFit) :
    (identStyle s.pseudo s = .property ∨ identStyle s.pseudo s = .atom) ∧ s.InRule ∨
      (identStyle s.pseudo s = .tag ∨ identStyle s.pseudo s = .qualifier) ∧ ¬ s.InRule := by
  rw [← State.inDeclarations_iff]
  cases hdecl : s.inDeclarations with
  | true =>
    have hpseudo : s.pseudo = false := by
      by_contra hne
      simpa [hdecl] using h.pseudo (by simpa using hne)
    exact .inl ⟨by cases s.inValue <;> simp [identStyle, hpseudo, hdecl], rfl⟩
  | false => exact .inr ⟨by cases s.pseudo <;> simp [identStyle, hdecl], by simp⟩

/-- **The flags follow the nests, and the styles follow the flags.** Take any
calls from a start, on whatever lines. In the state that they leave, a value
is being read only if the innermost nest other than parentheses is the block
of a rule, and a pseudo class only if it is not. An identifier read next is
a property or an atom exactly if that nest is the block of a rule, and a tag
or a qualifier exactly if it is not; the nests stay what they are. -/
theorem identifiers_styled_by_nests (o : Options) (baseIndent : Nat) (calls : List Cursor) :
    let s := (tokenizer o).afterCalls calls ((tokenizer o).start baseIndent)
    (s.inValue = true → s.InRule) ∧ (s.pseudo = true → ¬ s.InRule) ∧
      ∀ c : Cursor, lexemeAt c s = some .ident →
        let step := (tokenizer o).token c s
        (step.style = some .property ∨ step.style = some .atom ↔ s.InRule) ∧
          (step.style = some .tag ∨ step.style = some .qualifier ↔ ¬ s.InRule) ∧
          step.state.nests = s.nests := by
  intro s
  have hfit : s.FlagsFit :=
    Tokenizer.afterCalls_induction (t := tokenizer o) (fun c _ => flagsFit_token c) calls
      (State.flagsFit_initial baseIndent)
  refine ⟨fun hvalue => State.inDeclarations_iff.mp (hfit.inValue hvalue),
    fun hpseudo => State.inDeclarations_eq_false_iff.mp (hfit.pseudo hpseudo), ?_⟩
  intro c hident
  obtain ⟨width, htoken⟩ := token_of_lexemeAt hident
  have hstyle : ((tokenizer o).token c s).style = some (identStyle s.pseudo s) :=
    congrArg Step.style htoken
  have hnests : ((tokenizer o).token c s).state.nests = s.nests :=
    congrArg (fun step => step.state.nests) htoken
  refine ⟨?_, ?_, hnests⟩
  all_goals
    rw [hstyle]
    rcases identStyle_cases hfit with ⟨hcases | hcases, hin⟩ | ⟨hcases | hcases, hin⟩ <;>
      simp [hcases, hin]

/-- The state that the calls of a line leave. -/
def afterCallsOn (line : String) : State :=
  (tokenizer {}).afterCalls ((callsOn line).map (·.cursor)) ((tokenizer {}).start 0)

/-- In the value of a declaration, under a comment and a parenthesis, within
the body of an at-rule, and in a selector after a rule. -/
theorem identifiers_styled_by_nests_in_value :
    ((afterCallsOn "@m\x7ba\x7bb:/**/c(").inValue = true ∧
      lexemeAt (.ofLine "red".toList) (afterCallsOn "@m\x7ba\x7bb:/**/c(") = some .ident ∧
      (afterCallsOn "@m\x7ba\x7bb:/**/c(").InRule ∧
      let step := (tokenizer {}).token (.ofLine "red".toList) (afterCallsOn "@m\x7ba\x7bb:/**/c(")
      step.style = some .property ∨ step.style = some .atom) ∧
    ((afterCallsOn "a\x7bb:c(\x7da:").pseudo = true ∧
      lexemeAt (.ofLine "hover".toList) (afterCallsOn "a\x7bb:c(\x7da:") = some .ident ∧
      ¬ (afterCallsOn "a\x7bb:c(\x7da:").InRule ∧
      let step := (tokenizer {}).token (.ofLine "hover".toList) (afterCallsOn "a\x7bb:c(\x7da:")
      step.style = some .tag ∨ step.style = some .qualifier) := by
  constructor
  · obtain ⟨hvalue, -, hident⟩ :=
      identifiers_styled_by_nests {} 0 ((callsOn "@m\x7ba\x7bb:/**/c(").map (·.cursor))
    have hflag : (afterCallsOn "@m\x7ba\x7bb:/**/c(").inValue = true := by decide +kernel
    have hlexeme : lexemeAt (.ofLine "red".toList) (afterCallsOn "@m\x7ba\x7bb:/**/c(") =
        some .ident := by decide +kernel
    exact ⟨hflag, hlexeme, hvalue hflag, (hident _ hlexeme).1.mpr (hvalue hflag)⟩
  · obtain ⟨-, hpseudo, hident⟩ :=
      identifiers_styled_by_nests {} 0 ((callsOn "a\x7bb:c(\x7da:").map (·.cursor))
    have hflag : (afterCallsOn "a\x7bb:c(\x7da:").pseudo = true := by decide +kernel
    have hlexeme : lexemeAt (.ofLine "hover".toList) (afterCallsOn "a\x7bb:c(\x7da:") =
        some .ident := by decide +kernel
    exact ⟨hflag, hlexeme, hpseudo hflag, (hident _ hlexeme).2.1.mpr (hpseudo hflag)⟩

end Stylesheet

end MixedMarkup
