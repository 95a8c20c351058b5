import MixedMarkup.Proofs.Erasure
import MixedMarkup.Proofs.Passages
import MixedMarkup.Proofs.RegionEntry
import MixedMarkup.Proofs.StateComparison
/-!
# Stylesheets — the end of a rule

A closing brace that leaves nothing open brings all that the styles depend
on back to what it was at the start of the stylesheet, but for one thing: an
at-rule whose name has been read may still await its body. An opening brace
and a semicolon end that; the closing brace does not. So what follows the
brace is read like a stylesheet of its own exactly if no at-rule awaits its
body there (`rules_independent`).
-/

namespace MixedMarkup

open Cursor Text

namespace Tokenizer

variable {σ : Type} {t t' : Tokenizer σ} {R : σ → σ → Prop}

/-- **What follows a place is read the same from related states.** -/
theorem ReadsAlike.readOn (ht : t.ReadsAlike t' R) (index : Nat) (pl : Place) {s s' : σ}
    (h : R s s') : (t'.readOn index pl s').spans = (t.readOn index pl s).spans := by
  obtain ⟨c, later⟩ := pl
  obtain ⟨hspans, hfailure, hstate⟩ := ht.readFrom index c c.tabSize h
  have hretab : c.retab c.tabSize = c := rfl
  rw [hretab] at hspans hfailure hstate
  simp only [Tokenizer.readOn, hfailure]
  split
  · exact hspans
  · rw [hspans, ht.readLines later (index + 1) _ _ hstate]

end Tokenizer

namespace Stylesheet

variable {c : Cursor} {s : State}

/-! ## At-rules -/

/-- The lexeme that a call reads; `none` for blanks, for the text of comments
that began before, and where no lexeme starts. -/
def lexemeAt (c : Cursor) (s : State) : Option Lexeme :=
  match s.zone with
  | .comment => none
  | .rules =>
    match c.readBlanks? with
    | some _ => none
    | none => (lexeme? c.rest).map (·.1)

/-- After the calls an at-rule awaits its body: its name was read, and
neither an opening brace nor a semicolon since. -/
def AwaitsBody : List (Call State) → Prop :=
  Since (fun _ k => lexemeAt k.cursor k.state = some .atKeyword)
    fun k => lexemeAt k.cursor k.state ≠ some .openBrace ∧
      lexemeAt k.cursor k.state ≠ some .semicolon

theorem inPrelude_afterLexeme_iff (l : Lexeme) (s : State) :
    (afterLexeme l s).inPrelude = true ↔
      l = .atKeyword ∨ s.inPrelude = true ∧ l ≠ .openBrace ∧ l ≠ .semicolon := by
  cases l with
  | colon =>
    simp only [afterLexeme]
    split <;> simp
  | _ => simp [afterLexeme, State.push]

/-- **What a call does to the at-rule** that awaits its body. -/
theorem inPrelude_token_iff (c : Cursor) (s : State) :
    (token c s).state.inPrelude = true ↔
      lexemeAt c s = some .atKeyword ∨ s.inPrelude = true ∧
        lexemeAt c s ≠ some .openBrace ∧ lexemeAt c s ≠ some .semicolon := by
  unfold token lexemeAt
  cases s.zone with
  | comment => simp [inComment, enter]
  | rules =>
    dsimp only
    unfold inRules
    cases c.readBlanks? with
    | some d => simp [enter]
    | none =>
      cases hlexeme : lexeme? c.rest with
      | none => simp [enter]
      | some found =>
        obtain ⟨l, width⟩ := found
        have hstate : (finish l (c.read width) (enter c s)).state.inPrelude = true ↔
            l = .atKeyword ∨ s.inPrelude = true ∧ l ≠ .openBrace ∧ l ≠ .semicolon := by
          cases l with
          | comment => simp [finish, inComment, enter]
          | _ => exact inPrelude_afterLexeme_iff _ (enter c s)
        simpa using hstate

/-- **The state knows of an at-rule** what the calls before it tell. -/
theorem inPrelude_iff_of_history {o : Options} {baseIndent : Nat} {calls : List (Call State)}
    (h : (tokenizer o).History (.initial baseIndent) calls s) :
    s.inPrelude = true ↔ AwaitsBody calls := by
  induction h with
  | start =>
    constructor
    · intro h
      simp [State.initial] at h
    · intro h
      exact absurd h Since.not_nil
  | @call earlier k _ _ ih =>
    have htoken : ((tokenizer o).stepOf k).state = (token k.cursor k.state).state := rfl
    rw [htoken, inPrelude_token_iff, ih, AwaitsBody, Since.concat_iff]

/-! ## Closing braces -/

/-- A state with nothing open, which differs from a start at most in an
at-rule that awaits its body. -/
def State.between (inPrelude : Bool) : State := { State.initial 0 with inPrelude := inPrelude }

/-- **A closing brace that leaves nothing open** leaves such a state. -/
theorem alike_of_closeBrace (hzone : s.zone = .rules) (hbrace : c.peek? = some '}')
    (hnests : (token c s).state.nests = []) :
    (State.between s.inPrelude).Alike (token c s).state := by
  obtain ⟨text, hrest⟩ : ∃ text, c.rest = '}' :: text := by
    simpa [peek?, List.head?_eq_some_iff] using hbrace
  have hblank : isBlank '}' = false := by decide
  have hblanks : c.readBlanks? = none := by simp [readBlanks?, readWhile?, readIf?, hbrace, hblank]
  have hlexeme : lexeme? c.rest = some (.closeBrace, 1) := by
    rw [hrest]
    rfl
  have htoken : token c s = finish .closeBrace (c.read 1) (enter c s) := by
    simp only [token, hzone, inRules, hblanks, hlexeme]
  rw [htoken] at hnests ⊢
  exact ⟨hzone, congrArg _ hnests, rfl, rfl, rfl⟩

/-- The two such states read a block in different ways. -/
theorem between_reads_apart (o : Options) :
    ((tokenizer o).readOn 0 ⟨.ofLine ['{', 'a'], []⟩ (.between true)).spans ≠
      ((tokenizer o).readOn 0 ⟨.ofLine ['{', 'a'], []⟩ (.between false)).spans := by
  have hsame (s : State) : ((tokenizer o).readOn 0 ⟨.ofLine ['{', 'a'], []⟩ s).spans =
      ((tokenizer {}).readOn 0 ⟨.ofLine ['{', 'a'], []⟩ s).spans :=
    (readsAlike {} o).readOn 0 _ ⟨rfl, rfl, rfl, rfl, rfl⟩
  rw [hsame, hsame]
  decide +kernel

/-- **Rules are independent of each other** but for an at-rule that awaits
its body. Take calls from a start, the last of which reads a closing brace
outside comments that leaves nothing open. Whatever follows the brace, on its
line and on further lines, has the spans that it has from a start exactly if
no at-rule awaits its body before the brace. -/
theorem rules_independent (o : Options) {baseIndent : Nat} {earlier : List (Call State)}
    {k : Call State} (h : (tokenizer o).History (.initial baseIndent) (earlier ++ [k]) s)
    (hzone : k.state.zone = .rules) (hbrace : k.cursor.peek? = some '}') (hnests : s.nests = []) :
    (∀ (n index : Nat) (pl : Place), ((tokenizer o).readOn index pl s).spans =
        ((tokenizer o).readOn index pl (.initial n)).spans) ↔ ¬ AwaitsBody earlier := by
  obtain ⟨hearlier, hs⟩ := h.of_concat
  have htoken : s = (token k.cursor k.state).state := hs
  subst htoken
  have hreads (index : Nat) (pl : Place) :
      ((tokenizer o).readOn index pl (token k.cursor k.state).state).spans =
        ((tokenizer o).readOn index pl (.between k.state.inPrelude)).spans :=
    (readsAlike o o).readOn index pl (alike_of_closeBrace hzone hbrace hnests)
  have hfresh (n index : Nat) (pl : Place) : ((tokenizer o).readOn index pl (.initial n)).spans =
      ((tokenizer o).readOn index pl (.between false)).spans :=
    (readsAlike o o).readOn index pl (initial_alike 0 n)
  rw [← inPrelude_iff_of_history hearlier]
  constructor
  · intro hsame hawaits
    have hblock := hsame 0 0 ⟨.ofLine ['{', 'a'], []⟩
    rw [hreads, hfresh, hawaits] at hblock
    exact between_reads_apart o hblock
  · intro hawaits n index pl
    rw [Bool.not_eq_true] at hawaits
    rw [hreads, hfresh, hawaits]

/-- The calls that a line makes from a start. -/
def callsOn (line : String) : List (Call State) :=
  (tokenizer {}).callsFrom (.ofLine line.toList) (.initial 0)

/-- The state that it leaves. -/
def stateAfter (line : String) : State :=
  ((tokenizer {}).readLine 0 line.toList (.initial 0)).state

/-- The last of the calls. -/
def lastOn (line : String) : Call State :=
  (callsOn line).getLast?.getD ⟨.ofLine [], .initial 0⟩

/-- The history of the last call on a line. -/
theorem history_callsOn {line : String} (hne : callsOn line ≠ []) :
    (tokenizer {}).History (.initial 0) ((callsOn line).dropLast ++ [lastOn line])
      (stateAfter line) := by
  have hread := ((tokenizer_consumes {}).readLine_tiles 0 line.toList (.initial 0)).1
  have hlast : (callsOn line).dropLast ++ [lastOn line] = callsOn line := by
    rw [lastOn, List.getLast?_eq_some_getLast hne, Option.getD_some,
      List.dropLast_append_getLast hne]
  rw [hlast]
  exact (Tokenizer.History.of_callsFrom 0 (.ofLine line.toList) _ [] .start).2 hread

/-- A declaration without a semicolon at its end does no harm, nor does a
parenthesis that is left open in it. -/
theorem rules_independent_after_value :
    (tokenizer {}).History (.initial 0)
        ((callsOn "a\x7bb:c(d\x7d").dropLast ++ [lastOn "a\x7bb:c(d\x7d"])
        (stateAfter "a\x7bb:c(d\x7d") ∧
      (lastOn "a\x7bb:c(d\x7d").state.nests.map (·.kind) = [.parens, .rule] ∧
      (lastOn "a\x7bb:c(d\x7d").state.inValue = true ∧
      ∀ (n index : Nat) (pl : Place),
        ((tokenizer {}).readOn index pl (stateAfter "a\x7bb:c(d\x7d")).spans =
          ((tokenizer {}).readOn index pl (.initial n)).spans := by
  have hhistory : (tokenizer {}).History (.initial 0)
      ((callsOn "a\x7bb:c(d\x7d").dropLast ++ [lastOn "a\x7bb:c(d\x7d"])
      (stateAfter "a\x7bb:c(d\x7d") :=
    history_callsOn (by decide +kernel)
  have hawaits : ¬ AwaitsBody (callsOn "a\x7bb:c(d\x7d").dropLast := by
    rw [← inPrelude_iff_of_history hhistory.of_concat.1]
    decide +kernel
  exact ⟨hhistory, by decide +kernel, by decide +kernel,
    (rules_independent {} hhistory (by decide +kernel) (by decide +kernel)
      (by decide +kernel)).mpr hawaits⟩

/-- **An at-rule without a semicolon at its end** is remembered behind the
brace: the next rule is read as the body of the at-rule, and its property as
a selector. -/
theorem rules_depend_on_open_at_rule :
    (tokenizer {}).History (.initial 0)
        ((callsOn "a\x7b@x\x7d").dropLast ++ [lastOn "a\x7b@x\x7d"]) (stateAfter "a\x7b@x\x7d") ∧
      (lastOn "a\x7b@x\x7d").state.zone = .rules ∧
      (lastOn "a\x7b@x\x7d").cursor.peek? = some '}' ∧
      (stateAfter "a\x7b@x\x7d").nests = [] ∧
      ((tokenizer {}).readLine 1 "b\x7bc\x7d".toList (stateAfter "a\x7b@x\x7d")).spans.map
          Span.content =
        [("b", some .tag), ("\x7b", none), ("c", some .tag), ("\x7d", none)] ∧
      ((tokenizer {}).readLine 1 "b\x7bc\x7d".toList (.initial 0)).spans.map Span.content =
        [("b", some .tag), ("\x7b", none), ("c", some .property), ("\x7d", none)] := by
  refine ⟨history_callsOn (by decide +kernel), ?_, ?_, ?_, ?_, ?_⟩ <;> decide +kernel

end Stylesheet

end MixedMarkup
