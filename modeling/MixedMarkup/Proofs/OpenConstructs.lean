import MixedMarkup.Proofs.Alignment
import MixedMarkup.Proofs.StateComparison
import Mathlib.Data.List.Infix
/-!
# Mixed documents — the construct open at the end of a line

A line of a region that has no closing tag leaves the region in the same
construct, a comment, a template literal or neither, as it leaves the
region's tokenizer alone. The exception is a line whose last token ends in
`<` or `</`. The composite shrinks that token to its first character and
keeps the state behind it, so it reads the other characters once more from
inside the construct. As long as no mark that opens or closes a construct
is among them it stays there (`zone_readFrom`, `KeepsConstruct`); behind
`/*` a slash and an opener are enough to lose the comment
(`comment_lost_behind_opener`).
-/

namespace MixedMarkup

open Text Mixed

/-! ## Marks -/

/-- None of the marks stands in a text. -/
def FreeOf (marks : List (List Char)) (text : List Char) : Prop :=
  ∀ mark ∈ marks, ¬ mark <:+: text

instance (marks : List (List Char)) (text : List Char) : Decidable (FreeOf marks text) :=
  inferInstanceAs (Decidable (∀ mark ∈ marks, ¬ mark <:+: text))

theorem FreeOf.suffix {marks : List (List Char)} {text left : List Char} (h : FreeOf marks text)
    (hleft : left <:+ text) : FreeOf marks left :=
  fun mark hmark hin => h mark hmark (hin.trans hleft.isInfix)

/-- A scan for a mark that does not come finds no end. -/
theorem Scan.through_of_not_infix {mark text : List Char} (h : ¬ mark <:+: text) :
    (Scan.through mark text).closed = false := by
  cases hclosed : (Scan.through mark text).closed with
  | false => rfl
  | true =>
    obtain ⟨skipped, htake⟩ := Scan.exists_take_through hclosed
    have hin : mark <:+: skipped ++ mark := (List.suffix_append skipped mark).isInfix
    rw [← htake] at hin
    exact absurd (hin.trans (List.take_prefix _ text).isInfix) h

/-- The tokenizer is left in its zone by texts without the zone's marks. -/
def Tokenizer.MarkedBy {σ ζ : Type} (t : Tokenizer σ) (zone : σ → ζ)
    (marks : ζ → List (List Char)) : Prop :=
  ∀ (c : Cursor) (s : σ), FreeOf (marks (zone s)) c.rest → zone (t.token c s).state = zone s

namespace Script

/-- The marks that end a zone of scripts. -/
def Zone.marks : Zone → List (List Char)
  | code => ["/*".toList, [templateMark]]
  | comment => ["*/".toList]
  | template => [[templateMark]]

/-- A comment starts with its mark. -/
theorem lexeme?_eq_blockComment {text : List Char} {n : Nat}
    (h : lexeme? text = some (.blockComment, n)) : "/*".toList <+: text := by
  fun_cases lexeme? text with
  | case1 => simp [lexeme?] at h
  | case2 c text hslash =>
    obtain rfl : c = '/' := by simpa using hslash
    have hlexeme : slashLexeme text = (.blockComment, n) := Option.some.inj h
    fun_cases slashLexeme text <;> simp_all [slashLexeme]
  | case6 c text _ _ _ _ hdot => fun_cases dotLexeme text <;> simp_all [lexeme?, dotLexeme]
  | _ => simp_all [lexeme?]

/-- And so does a template literal. -/
theorem lexeme?_eq_template {text : List Char} {n : Nat}
    (h : lexeme? text = some (.template, n)) : [templateMark] <+: text := by
  fun_cases lexeme? text with
  | case1 => simp [lexeme?] at h
  | case2 c text hslash => fun_cases slashLexeme text <;> simp_all [lexeme?, slashLexeme]
  | case4 c text _ _ hmark => simp_all
  | case6 c text _ _ _ _ hdot => fun_cases dotLexeme text <;> simp_all [lexeme?, dotLexeme]
  | _ => simp_all [lexeme?]

/-- No other lexeme leads to another zone. -/
theorem zone_finish {l : Lexeme} (hcomment : l ≠ .blockComment) (htemplate : l ≠ .template)
    (c : Cursor) (s : State) : (finish l c s).state.zone = s.zone := by
  cases l with
  | blockComment => exact absurd rfl hcomment
  | template => exact absurd rfl htemplate
  | _ => rfl

theorem zone_inCode {c : Cursor} {s : State} (h : FreeOf Zone.code.marks c.rest) :
    (inCode c s).state.zone = s.zone := by
  have hcomment : ¬ "/*".toList <:+: c.rest := h _ (by simp [Zone.marks])
  have htemplate : ¬ [templateMark] <:+: c.rest := h _ (by simp [Zone.marks])
  unfold inCode
  split
  · rfl
  · split
    · rename_i l n hlexeme
      refine zone_finish ?_ ?_ _ s
      · rintro rfl
        exact hcomment (lexeme?_eq_blockComment hlexeme).isInfix
      · rintro rfl
        exact htemplate (lexeme?_eq_template hlexeme).isInfix
    · split <;> rfl

/-- **A script is left in its zone by texts without the zone's marks.** -/
theorem tokenizer_markedBy (o : Options) : (tokenizer o).MarkedBy State.zone Zone.marks := by
  intro c s h
  change (token c s).state.zone = s.zone
  unfold token
  cases hzone : s.zone with
  | code =>
    rw [hzone] at h
    exact (zone_inCode h).trans hzone
  | comment =>
    have hopen := Scan.through_of_not_infix (h "*/".toList (by simp [hzone, Zone.marks]))
    simp only [inComment, hopen]
    rfl
  | template =>
    have hmark := h [templateMark] (by simp [hzone, Zone.marks])
    rw [List.singleton_infix_iff] at hmark
    simp [inTemplate, Scan.quoted_of_not_mem hmark]

end Script

namespace Stylesheet

/-- The marks that end a zone of stylesheets. -/
def Zone.marks : Zone → List (List Char)
  | rules => ["/*".toList]
  | comment => ["*/".toList]

/-- A comment starts with its mark. -/
theorem lexeme?_eq_comment {text : List Char} {n : Nat} (h : lexeme? text = some (.comment, n)) :
    "/*".toList <+: text := by
  have hne : text ≠ [] := by
    rintro rfl
    simp [lexeme?] at h
  cases lexemeCut hne (.inl rfl : TagOrEnd []) with
  | nothing hnone => simp [hnone] at h
  | plain hl hlexeme =>
    rw [hlexeme, Option.some.injEq, Prod.mk.injEq] at h
    exact (h.1 ▸ hl : Lexeme.Plain .comment).elim
  | comment hbody => exact ⟨_, hbody.symm⟩
  | quote _ _ hlexeme => simp [hlexeme] at h

theorem zone_finish {l : Lexeme} (hcomment : l ≠ .comment) (c : Cursor) (s : State) :
    (finish l c s).state.zone = s.zone := by
  cases l with
  | comment => exact absurd rfl hcomment
  | colon =>
    simp only [finish, afterLexeme]
    split <;> rfl
  | _ => rfl

theorem zone_inRules {c : Cursor} {s : State} (h : FreeOf Zone.rules.marks c.rest) :
    (inRules c s).state.zone = s.zone := by
  have hcomment : ¬ "/*".toList <:+: c.rest := h _ (by simp [Zone.marks])
  unfold inRules
  split
  · rfl
  · split
    · rename_i l n hlexeme
      refine zone_finish ?_ _ s
      rintro rfl
      exact hcomment (lexeme?_eq_comment hlexeme).isInfix
    · rfl

/-- **A stylesheet is left in its zone by texts without the zone's marks.** -/
theorem tokenizer_markedBy (o : Options) : (tokenizer o).MarkedBy State.zone Zone.marks := by
  intro c s h
  change (token c s).state.zone = s.zone
  unfold token
  cases hzone : s.zone with
  | rules =>
    rw [hzone] at h
    exact (zone_inRules h).trans hzone
  | comment =>
    have hopen := Scan.through_of_not_infix (h "*/".toList (by simp [hzone, Zone.marks]))
    simp only [inComment, hopen]
    rfl

end Stylesheet

namespace Mixed

namespace Composite

variable {η σ κ φ τ ζ : Type} {m : Composite η σ κ φ} {t : Tokenizer τ} {wrap : τ → Region σ κ}
variable {e : EmbeddingElement} {zone : τ → ζ} {marks : ζ → List (List Char)}

/-- **A region is left in its zone by what holds no mark of it**, however
its tokens are trimmed. -/
theorem Embeds.zone_readFrom (hm : m.Embeds t wrap e) (ht : t.Consumes)
    (hmarks : t.MarkedBy zone marks) (index : Nat) {c : Cursor} {st : State η σ κ} {s : τ}
    (hr : st.region = some (wrap s)) (hclear : e.Clear c.rest [])
    (hfree : FreeOf (marks (zone s)) c.rest) :
    ∃ s', (m.tokenizer.readFrom index c st).state.region = some (wrap s') ∧ zone s' = zone s := by
  -- the zone and its marks stay the same while the calls leave less and less of the line
  induction hn : c.rest.length using Nat.strongRecOn generalizing c st s with
  | ind n ih =>
    by_cases hrest : c.rest = []
    · rw [Tokenizer.readFrom_of_atEnd _ hrest]
      exact ⟨s, hr, rfl⟩
    · have hopen : ¬ e.Closes c.beginToken.rest := by
        have := hclear [] c.rest rfl hrest
        rwa [List.append_nil] at this
      have hadv := ht c.beginToken s rfl hrest
      obtain ⟨kept, hne, htook, -⟩ := EmbeddingElement.trim_took rfl hadv hopen
      have hcut : c.rest = kept ++ (e.trim (t.token c.beginToken s).cursor).rest := htook.rest
      have hzone : zone (t.token c.beginToken s).state = zone s := hmarks c.beginToken s hfree
      rw [(hm.goesOn hr hopen htook hne index).state, ← hzone]
      refine ih _ ?_ rfl ?_ ?_ rfl
      · exact hn ▸ Cursor.Advances.rest_lt (c := c.beginToken) ⟨kept, hne, htook⟩
      · rw [hcut] at hclear
        exact hclear.drop
      · rw [hcut, ← hzone] at hfree
        exact hfree.suffix (List.suffix_append _ _)

/-- **The composite keeps the construct that the tokenizer leaves open**:
in a region of it, on a line without line feeds and without a closing tag
ahead, the region ends in the zone in which the tokenizer alone ends. It
is assumed that where the tokenizer's last token ends in `<` or `</`, its
text behind the first character holds no mark of the zone that the token
leads to. -/
def KeepsConstruct (m : Composite η σ κ φ) (t : Tokenizer τ) (wrap : τ → Region σ κ)
    (e : EmbeddingElement) (zone : τ → ζ) (marks : ζ → List (List Char)) : Prop :=
  ∀ (index : Nat) (c : Cursor) (st : State η σ κ) (s : τ), st.region = some (wrap s) →
    '\n' ∉ c.line → (∀ k, c.pos ≤ k → ¬ e.ClosesAtOffset c.line k) →
    (∀ k ∈ t.callsFrom c s, (t.stepOf k).cursor.rest = [] →
      ['<'] <:+ t.textOf k ∨ ['<', '/'] <:+ t.textOf k →
        FreeOf (marks (zone (t.stepOf k).state)) (t.textOf k).tail) →
    ∃ s', (m.tokenizer.readFrom index c st).state.region = some (wrap s') ∧
      zone s' = zone (t.readFrom index c s).state

theorem Embeds.keepsConstruct (hm : m.Embeds t wrap e) (hg : e.Guards t) (ht : t.Consumes)
    (hmarks : t.MarkedBy zone marks) : m.KeepsConstruct t wrap e zone marks := by
  intro index c st s hr hlf hnone hlast
  have hclear := EmbeddingElement.forall_not_iff_clear.mp hnone
  have hlf' : '\n' ∉ c.rest ++ [] := by
    rw [Cursor.line, List.mem_append, List.mem_append] at hlf
    rw [List.append_nil]
    exact fun h => hlf (.inr (.inr h))
  cases hm.aligned hg index hr (List.append_nil _).symm hclear (.inl rfl) hlf' with
  | through hend _ hstate hregion =>
    rw [hstate, Tokenizer.readFrom_of_atEnd _ hend]
    exact ⟨_, hregion rfl, rfl⟩
  | @torn d st' k _ _ hk hlastk hopens htail hbody hregion hstate hend =>
    have hopener := EmbeddingElement.suffix_of_endsInOpener hopens
    have hfree := (hlast k hk hlastk hopener).suffix htail
    have hleft : e.Clear d.rest [] := by
      obtain ⟨skipped, hskipped⟩ := hbody
      rw [← hskipped] at hclear
      exact hclear.drop
    obtain ⟨s', hs', hzone⟩ := hm.zone_readFrom ht hmarks index hregion hleft hfree
    refine ⟨s', hend ▸ hs', hzone.trans ?_⟩
    exact congrArg zone hstate.symm

/-- **A line leaves a region in the construct in which it leaves the
tokenizer alone**, of scripts and of styles. -/
theorem open_construct_kept (o : Options) (types : TypePatterns) :
    (html o types).KeepsConstruct (Script.tokenizer o) .script .script Script.State.zone
        Script.Zone.marks ∧
      (html o types).KeepsConstruct (Stylesheet.tokenizer o) .style .style Stylesheet.State.zone
        Stylesheet.Zone.marks :=
  ⟨(html_embeds_script o types).keepsConstruct (guards_script _ o) (Script.tokenizer_consumes o)
      (Script.tokenizer_markedBy o),
    (html_embeds_style o types).keepsConstruct (guards_style _ o)
      (Stylesheet.tokenizer_consumes o) (Stylesheet.tokenizer_markedBy o)⟩

/-- A comment that ends its line in `<` stays open. -/
theorem open_construct_kept_before_opener :
    insideScript.region = some (.script (.initial 0)) ∧
    (∀ k, (Cursor.ofLine "x /* y <".toList).pos ≤ k →
      ¬ EmbeddingElement.script.ClosesAtOffset (Cursor.ofLine "x /* y <".toList).line k) ∧
    ((Script.tokenizer {}).callsFrom (.ofLine "x /* y <".toList) (.initial 0)).map
      (Script.tokenizer {}).textOf = ["x".toList, " ".toList, "/* y <".toList] ∧
    ∃ s', ((html {} .standard).tokenizer.readFrom 1 (.ofLine "x /* y <".toList)
        insideScript).state.region = some (.script s') ∧ s'.zone = .comment := by
  have hnone := EmbeddingElement.not_closesAtOffset_of_findClosing?
    (by decide : EmbeddingElement.script.findClosing? "x /* y <".toList = none)
  have halone : ((Script.tokenizer {}).readFrom 1 (.ofLine "x /* y <".toList)
      (.initial 0)).state.zone = .comment := by
    decide +kernel
  obtain ⟨s', hregion, hzone⟩ := (open_construct_kept {} .standard).1 1
    (.ofLine "x /* y <".toList) insideScript (.initial 0) rfl (by decide) (fun k _ => hnone k)
    (by decide +kernel)
  exact ⟨rfl, fun k _ => hnone k, by decide +kernel, s', hregion, hzone.trans halone⟩

/-- **Behind `/*` a slash and an opener lose the comment.** The tokenizer
alone is inside it at the end of the line. The composite has shrunk the
token to its first slash, in the state inside the comment, and takes the
star of the opener with the next slash for the comment's end. -/
theorem comment_lost_behind_opener :
    (∀ k, ¬ EmbeddingElement.script.ClosesAtOffset "/*/ <".toList k) ∧
    ∃ s s', (leftBy ["<script>"]).region = some (.script s) ∧
      ((Script.tokenizer {}).readLine 1 "/*/ <".toList s).state.zone = .comment ∧
      ((html {} .standard).tokenizer.readLine 1 "/*/ <".toList
        (leftBy ["<script>"])).state.region = some (.script s') ∧
      s'.zone = .code := by
  have hnone := EmbeddingElement.not_closesAtOffset_of_findClosing?
    (by decide : EmbeddingElement.script.findClosing? "/*/ <".toList = none)
  refine ⟨hnone, .initial 2, ⟨.code, [], 2, 0, .other⟩, ?_, ?_, ?_, rfl⟩
  · decide +kernel
  · decide +kernel
  · decide +kernel

end Composite

end Mixed

end MixedMarkup
