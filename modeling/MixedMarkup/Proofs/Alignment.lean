import MixedMarkup.Proofs.Coverage
import MixedMarkup.Proofs.EmbeddedFates
/-!
# Mixed documents — a region and its tokenizer alone

The reading of a region's body is set against the reading of the same
text by the region's tokenizer alone, on the line cut behind the body.
Each call of the composite has a counterpart (`GoesOn`): the tokenizer
alone makes the same styles over the text of the call and comes to the
same state, or, where a run of operators was split, could as well have
started behind the first of them (`goesOn_of_split`). Call by call the two
readings come to the end of the body together, unless the line ends in an
opener; then the composite is left inside the last token (`Aligned`).
-/

namespace MixedMarkup

open Text Mixed
open EmbeddingElement (endsInOpener endsInOpener_append)

/-- The styles of the bytes of spans that lie one after the other. -/
def byteStyles (spans : List Span) : List (Option Style) :=
  spans.flatMap fun s => List.replicate (s.stop - s.start) s.style

namespace Tokenizer

variable {σ : Type} {t : Tokenizer σ} {index : Nat} {c d : Cursor} {s u : σ}
variable {text : List Char} {style : Option Style}

/-- A line is read the same from one place, however it was cut into tokens
before it. -/
theorem readFrom_congr (h : c.beginToken = d.beginToken) (index : Nat) (s : σ) :
    t.readFrom index c s = t.readFrom index d s := by
  have hrest := (Cursor.beginToken_eq_iff.mp h).2.1
  have hpos : c.pos = d.pos := by rw [← Cursor.pos_beginToken, h, Cursor.pos_beginToken]
  rw [readFrom, readFrom, h, hpos, hrest, Cursor.atEnd, Cursor.atEnd, hrest]

/-- By the same calls. -/
theorem callsFrom_congr (h : c.beginToken = d.beginToken) (s : σ) :
    t.callsFrom c s = t.callsFrom d s := by
  have hrest := (Cursor.beginToken_eq_iff.mp h).2.1
  rw [callsFrom, callsFrom, h, hrest, Cursor.atEnd, Cursor.atEnd, hrest]

/-- The reading from `c` in the state `s` gives the bytes of `text` the
style, and goes on as the reading from `d` in the state `u`, whose last
token is the end of a token of the former. -/
structure GoesOn (t : Tokenizer σ) (index : Nat) (c : Cursor) (s : σ) (text : List Char)
    (style : Option Style) (d : Cursor) (u : σ) : Prop where
  styles : byteStyles (t.readFrom index c s).spans =
    List.replicate (byteSize text) style ++ byteStyles (t.readFrom index d u).spans
  state : (t.readFrom index c s).state = (t.readFrom index d u).state
  last : ∀ k ∈ t.callsFrom d u, (t.stepOf k).cursor.rest = [] →
    ∃ k' ∈ t.callsFrom c s, (t.stepOf k').cursor.rest = [] ∧ t.textOf k <:+ t.textOf k' ∧
      (t.stepOf k').state = (t.stepOf k).state

/-- **A reading goes on behind its first token.** -/
theorem goesOn_of_took (h : c.beginToken.Took text (t.token c.beginToken s).cursor)
    (hne : text ≠ []) (index : Nat) :
    t.GoesOn index c s text (t.token c.beginToken s).style (t.token c.beginToken s).cursor
      (t.token c.beginToken s).state := by
  have hrun := Run.single (t := t) (s := s) ⟨text, hne, h⟩
  have hwidth : (t.callSpan index ⟨c.beginToken, s⟩).stop -
      (t.callSpan index ⟨c.beginToken, s⟩).start = byteSize text := by
    have htoken : (t.token c.beginToken s).cursor.token = text := h.token
    simp only [callSpan, stepOf, spanOf, Cursor.pos, Cursor.start, htoken]
    omega
  refine ⟨?_, ?_, ?_⟩
  · rw [hrun.readFrom_eq index]
    simp only [byteStyles, List.map_singleton, List.flatMap_append, List.flatMap_singleton, hwidth]
    rfl
  · rw [hrun.readFrom_eq index]
  · intro k hk hlast
    refine ⟨k, ?_, hlast, List.suffix_rfl, rfl⟩
    rw [hrun.callsFrom_eq]
    exact List.mem_append_right _ hk

/-- As many styles as bytes. -/
theorem Consumes.length_byteStyles (ht : t.Consumes) (index : Nat) (c : Cursor) (s : σ) :
    (byteStyles (t.readFrom index c s).spans).length = byteSize c.rest := by
  -- each call leaves less of the line
  induction hn : c.rest.length using Nat.strongRecOn generalizing c s with
  | ind n ih =>
    by_cases hrest : c.rest = []
    · rw [readFrom_of_atEnd t hrest, hrest]
      rfl
    · obtain ⟨text, hne, htook⟩ := ht c.beginToken s rfl hrest
      have hcut : c.rest = text ++ (t.token c.beginToken s).cursor.rest := htook.rest
      have hlt := Cursor.Advances.rest_lt (c := c.beginToken) ⟨text, hne, htook⟩
      rw [(goesOn_of_took htook hne index).styles, List.length_append, List.length_replicate,
        ih _ (hn ▸ hlt) _ _ rfl, hcut, byteSize_append]

end Tokenizer

namespace Cursor

variable {c d d' : Cursor} {text left : List Char}

theorem cutTo_beginToken (body : List Char) (c : Cursor) :
    (c.cutTo body).beginToken = c.beginToken.cutTo body := rfl

/-- Cursors that took the same text of a line and of the cut line stand at
the same place. -/
theorem cutTo_eq_of_took (htook : c.Took text d)
    (htook' : (c.cutTo (text ++ left)).Took text d') : d.cutTo left = d' := by
  rw [Cursor.mk.injEq]
  exact ⟨htook.before.trans htook'.before.symm, htook.token.trans htook'.token.symm,
    (htook'.rest_eq rfl).symm, htook.tabSize.trans htook'.tabSize.symm⟩

end Cursor

namespace Mixed

namespace EmbeddingElement

variable {e : EmbeddingElement} {line : List Char} {k : Nat}

/-- The search for the closing tag finds the first one on a line. -/
theorem isLeast_of_findClosing? (h : e.findClosing? line = some k) :
    IsLeast {k | (Cursor.ofLine line).pos ≤ k ∧
      e.ClosesAtOffset (Cursor.ofLine line).line k} k := by
  obtain ⟨body, after, hrest, hsize, hafter, hclear⟩ := findClosing?_eq_some h
  refine isLeast_iff_clear.mpr ⟨body, after, hrest, ?_, hafter, hclear⟩
  rw [hsize]
  exact Nat.zero_add k

/-- And misses none. -/
theorem not_closesAtOffset_of_findClosing? (h : e.findClosing? line = none) (k : Nat) :
    ¬ e.ClosesAtOffset (Cursor.ofLine line).line k :=
  forall_not_iff_clear.mpr (clear_of_findClosing?_eq_none h) k (Nat.zero_le k)

end EmbeddingElement

/-- Every token of the tokenizer has a fate in regions of the element, on
lines without line feeds. -/
def EmbeddingElement.Guards {τ : Type} (e : EmbeddingElement) (t : Tokenizer τ) : Prop :=
  ∀ (c : Cursor) (body after : List Char) (s : τ), e.Ahead c body after → '\n' ∉ body ++ after →
    e.Fate t c body after (t.token c s) (t.token (c.cutTo body) s)

namespace Composite

variable {η σ κ φ τ : Type} {m : Composite η σ κ φ} {t : Tokenizer τ} {wrap : τ → Region σ κ}
variable {e : EmbeddingElement}

/-- The tokenizer reads the regions that its states are wrapped in, which
are bodies of the element. -/
structure Embeds (m : Composite η σ κ φ) (t : Tokenizer τ) (wrap : τ → Region σ κ)
    (e : EmbeddingElement) : Prop where
  element : ∀ s, (wrap s).element = e
  token : ∀ c s, m.regionToken c (wrap s) = (t.token c s).map wrap

variable {c : Cursor} {st : State η σ κ} {s : τ} {body after text left : List Char}

/-- In a region the composite reads with its tokenizer, and trims. -/
theorem Embeds.token_eq (hm : m.Embeds t wrap e) (hr : st.region = some (wrap s))
    (hopen : ¬ e.Closes c.rest) :
    m.tokenizer.token c st = ⟨(t.token c s).style, e.trim (t.token c s).cursor,
      ⟨st.host, some (wrap (t.token c s).state), (wrap s).grammar⟩⟩ := by
  change m.token c st = _
  rw [token_of_not_closes hr ((hm.element s).symm ▸ hopen), hm.token, hm.element]
  rfl

/-! ## One call -/

/-- Behind a run, and behind the rest of it read apart, the cut line is at
one place. -/
theorem beginToken_eq_of_split {first : Char} {d d₁ d₂ : Cursor}
    (htook : c.beginToken.Took [first] d)
    (htook' : (c.cutTo (first :: (text ++ left))).beginToken.Took (first :: text) d₁)
    (hread : (d.cutTo (text ++ left)).beginToken.Took text d₂) : d₂.beginToken = d₁.beginToken := by
  have hline : (d.cutTo (text ++ left)).line = (c.cutTo (first :: (text ++ left))).line := by
    have hbefore : d.before = c.before ++ c.token := htook.before
    simp only [Cursor.line, Cursor.cutTo, hbefore, htook.token, Cursor.token_beginToken,
      List.nil_append, List.singleton_append, List.append_assoc]
  have hrest : d₂.rest = left := hread.rest_eq rfl
  have hrest' : d₁.rest = left := htook'.rest_eq rfl
  refine Cursor.beginToken_eq_iff.mpr ⟨?_, hrest.trans hrest'.symm, ?_⟩
  · rw [hread.line, htook'.line, Cursor.line_beginToken, Cursor.line_beginToken, hline]
  · rw [hread.tabSize, htook'.tabSize]
    exact htook.tabSize

/-- **Where a run was split the tokenizer alone could have started behind
the first operator.** -/
theorem goesOn_of_split {first : Char} {style : Option Style} {d : Cursor} {u : τ}
    (htook : c.beginToken.Took [first] d) (hbody : body = first :: (text ++ left))
    (htook' : (c.cutTo body).beginToken.Took (first :: text)
      (t.token (c.cutTo body).beginToken s).cursor)
    (hne : text ≠ []) (hstyle : (t.token (c.cutTo body).beginToken s).style = style)
    (hstate : (t.token (c.cutTo body).beginToken s).state = u)
    (hagain : ∀ d : Cursor, d.before ≠ [] → d.token = [] → d.rest = text ++ left →
      d.Took text (t.token d u).cursor ∧ (t.token d u).style = style ∧ (t.token d u).state = u)
    (index : Nat) :
    t.GoesOn index (c.cutTo body) s [first] style (d.cutTo (text ++ left)) u := by
  subst hbody
  have hbefore : (d.cutTo (text ++ left)).beginToken.before ≠ [] := by
    change d.before ++ d.token ≠ []
    rw [htook.token]
    simp
  obtain ⟨hread, hstyle₂, hstate₂⟩ := hagain (d.cutTo (text ++ left)).beginToken hbefore rfl rfl
  have hplace := beginToken_eq_of_split htook htook' hread
  have hwhole := Tokenizer.goesOn_of_took htook' (by simp) index
  have hpart := Tokenizer.goesOn_of_took hread hne index
  rw [hstyle, hstate] at hwhole
  rw [hstyle₂, hstate₂] at hpart
  refine ⟨?_, ?_, ?_⟩
  · rw [hwhole.styles, hpart.styles, Tokenizer.readFrom_congr hplace, byteSize_cons,
      ← List.replicate_append_replicate, List.append_assoc]
    rfl
  · rw [hwhole.state, hpart.state, Tokenizer.readFrom_congr hplace]
  · intro k hk hlast
    have hcalls := (Tokenizer.Run.single (t := t) (s := u) ⟨text, hne, hread⟩).callsFrom_eq
    rw [hcalls, hstate₂, Tokenizer.callsFrom_congr hplace, List.mem_append,
      List.mem_singleton] at hk
    have hcalls' := (Tokenizer.Run.single (t := t) (s := s) ⟨_, by simp, htook'⟩).callsFrom_eq
    rw [hcalls', hstate]
    rcases hk with rfl | hk
    · -- the last operators end the whole run too
      refine ⟨_, List.mem_append_left _ (List.mem_singleton_self _), ?_, ?_, ?_⟩
      · exact (Cursor.beginToken_eq_iff.mp hplace).2.1 ▸ hlast
      · have htext : t.textOf ⟨(d.cutTo (text ++ left)).beginToken, u⟩ = text := hread.token
        have htext' : t.textOf ⟨(c.cutTo (first :: (text ++ left))).beginToken, s⟩ =
            first :: text := htook'.token
        rw [htext, htext']
        exact List.suffix_cons first text
      · exact hstate.trans hstate₂.symm
    · exact ⟨k, List.mem_append_right _ hk, hlast, List.suffix_rfl, rfl⟩

/-- A call of the composite in a region, and what comes behind it. -/
theorem Embeds.goesOn (hm : m.Embeds t wrap e) (hr : st.region = some (wrap s))
    (hopen : ¬ e.Closes c.beginToken.rest)
    (htook : c.beginToken.Took text (e.trim (t.token c.beginToken s).cursor)) (hne : text ≠ [])
    (index : Nat) :
    m.tokenizer.GoesOn index c st text (t.token c.beginToken s).style
      (e.trim (t.token c.beginToken s).cursor)
      ⟨st.host, some (wrap (t.token c.beginToken s).state), (wrap s).grammar⟩ := by
  have htoken := hm.token_eq hr hopen
  have htook' : c.beginToken.Took text (m.tokenizer.token c.beginToken st).cursor := by
    rw [htoken]
    exact htook
  have hcall := Tokenizer.goesOn_of_took htook' hne index
  rwa [htoken] at hcall

/-! ## A whole body -/

/-- How the reading of a body in a region compares with the tokenizer's
own. The composite comes to the end of the body with the styles of the
tokenizer, and with its state if the line ends there; or the line ends in
an opener, and the composite is inside the last token of the tokenizer,
in the state behind it. -/
inductive Aligned (m : Composite η σ κ φ) (t : Tokenizer τ) (wrap : τ → Region σ κ) (index : Nat)
    (c : Cursor) (body after : List Char) (st : State η σ κ) (s : τ) : Prop
  | through {d : Cursor} {st' : State η σ κ} : d.rest = after →
      byteStyles (m.tokenizer.readFrom index c st).spans =
        byteStyles (t.readFrom index (c.cutTo body) s).spans ++
          byteStyles (m.tokenizer.readFrom index d st').spans →
      (m.tokenizer.readFrom index c st).state = (m.tokenizer.readFrom index d st').state →
      (after = [] → st'.region = some (wrap (t.readFrom index (c.cutTo body) s).state)) →
      Aligned m t wrap index c body after st s
  | torn {d : Cursor} {st' : State η σ κ} {k : Call τ} : after = [] → endsInOpener body = true →
      k ∈ t.callsFrom (c.cutTo body) s → (t.stepOf k).cursor.rest = [] →
      endsInOpener (t.textOf k) = true → d.rest <:+ (t.textOf k).tail → d.rest <:+ body →
      st'.region = some (wrap (t.stepOf k).state) →
      (t.readFrom index (c.cutTo body) s).state = (t.stepOf k).state →
      (m.tokenizer.readFrom index c st).state = (m.tokenizer.readFrom index d st').state →
      Aligned m t wrap index c body after st s

/-- A longer token has a longer tail. -/
theorem tail_suffix_tail {a b : List Char} (h : a <:+ b) : a.tail <:+ b.tail := by
  obtain ⟨skipped, rfl⟩ := h
  cases skipped with
  | nil => exact List.suffix_rfl
  | cons c skipped => exact (List.tail_suffix a).trans (List.suffix_append skipped a)

/-- **Readings that go on aligned were aligned before.** -/
theorem Aligned.of_goesOn {index : Nat} {style : Option Style} {d : Cursor} {st' : State η σ κ}
    {u : τ} (hcomp : m.tokenizer.GoesOn index c st text style d st')
    (halone : t.GoesOn index (c.cutTo (text ++ left)) s text style (d.cutTo left) u)
    (h : m.Aligned t wrap index d left after st' u) :
    m.Aligned t wrap index c (text ++ left) after st s := by
  cases h with
  | through hrest hstyles hstate hend =>
    refine .through hrest ?_ (hcomp.state.trans hstate) ?_
    · rw [hcomp.styles, hstyles, halone.styles, List.append_assoc]
    · rwa [halone.state]
  | torn hafter hopener hk hlast hopens hrest hbody hregion hstate hend =>
    obtain ⟨k', hk', hlast', hsuffix, hstate'⟩ := halone.last _ hk hlast
    refine .torn hafter (endsInOpener_append text hopener) hk' hlast' ?_
      (hrest.trans (tail_suffix_tail hsuffix)) (hbody.trans (List.suffix_append text left))
      (hstate' ▸ hregion) ?_ (hcomp.state.trans hend)
    · obtain ⟨skipped, htext⟩ := hsuffix
      exact htext ▸ endsInOpener_append skipped hopens
    · rw [halone.state, hstate, hstate']

/-- A token that is cut before the tag is the last of the body. -/
theorem Embeds.aligned_of_cut (hm : m.Embeds t wrap e) (hr : st.region = some (wrap s))
    (h : e.Ahead c.beginToken body after) (hcloses : e.Closes after)
    (htook : c.beginToken.Took body (e.trim (t.token c.beginToken s).cursor))
    (htook' : (c.cutTo body).beginToken.Took body (t.token (c.cutTo body).beginToken s).cursor)
    (hstyle : (t.token (c.cutTo body).beginToken s).style = (t.token c.beginToken s).style)
    (index : Nat) : m.Aligned t wrap index c body after st s := by
  have hcomp := hm.goesOn hr h.not_closes htook h.ne index
  have halone := Tokenizer.goesOn_of_took htook' h.ne index
  have hend : (t.token (c.cutTo body).beginToken s).cursor.rest = [] :=
    htook'.rest_eq (List.append_nil body).symm
  refine .through (htook.rest_eq h.rest) ?_ hcomp.state ?_
  · rw [hcomp.styles, halone.styles, hstyle, Tokenizer.readFrom_of_atEnd t hend]
    exact congrArg (· ++ _) (List.append_nil _).symm
  · intro hnil
    obtain ⟨left, hleft⟩ := hcloses.exists_cons
    simp [hnil] at hleft

/-- A token that shrinks is the one in which the composite is left. -/
theorem Embeds.aligned_of_shrunk (hm : m.Embeds t wrap e) (hr : st.region = some (wrap s))
    (h : e.Ahead c.beginToken body after) {first : Char} (hafter : after = [])
    (hcut : body = first :: text) (hopener : endsInOpener body = true)
    (htook : c.beginToken.Took [first] (e.trim (t.token c.beginToken s).cursor))
    (htook' : (c.cutTo body).beginToken.Took body (t.token (c.cutTo body).beginToken s).cursor)
    (hstate : (t.token (c.cutTo body).beginToken s).state = (t.token c.beginToken s).state)
    (index : Nat) : m.Aligned t wrap index c body after st s := by
  have hcomp := hm.goesOn hr h.not_closes htook (by simp) index
  have halone := Tokenizer.goesOn_of_took htook' h.ne index
  have hend : (t.token (c.cutTo body).beginToken s).cursor.rest = [] :=
    htook'.rest_eq (List.append_nil body).symm
  have hcall : (⟨(c.cutTo body).beginToken, s⟩ : Call τ) ∈ t.callsFrom (c.cutTo body) s := by
    rw [(Tokenizer.Run.single ⟨body, h.ne, htook'⟩).callsFrom_eq]
    exact List.mem_append_left _ (List.mem_singleton_self _)
  have htext : t.textOf ⟨(c.cutTo body).beginToken, s⟩ = body := htook'.token
  have hleft : (e.trim (t.token c.beginToken s).cursor).rest = text :=
    htook.rest_eq (by rw [h.rest, hcut, hafter, List.append_nil]; rfl)
  refine .torn hafter hopener hcall hend ?_ ?_ ?_ ?_ ?_ hcomp.state
  · rw [htext, hopener]
  · rw [hleft, htext, hcut]
    exact List.suffix_rfl
  · rw [hleft, hcut]
    exact List.suffix_cons first text
  · exact congrArg (some ∘ wrap) hstate.symm
  · rw [halone.state]
    exact congrArg Reading.state (Tokenizer.readFrom_of_atEnd t hend index _)

/-- **One call in a body** ends it, or has a counterpart behind which both
readings go on with what is left of the body. -/
theorem Embeds.aligned_or_goesOn (hm : m.Embeds t wrap e) (hg : e.Guards t)
    (hr : st.region = some (wrap s)) (h : e.Ahead c.beginToken body after)
    (hlf : '\n' ∉ body ++ after) (index : Nat) :
    m.Aligned t wrap index c body after st s ∨
      ∃ text left style d st' u, body = text ++ left ∧ text ≠ [] ∧ d.rest = left ++ after ∧
        st'.region = some (wrap u) ∧ m.tokenizer.GoesOn index c st text style d st' ∧
        t.GoesOn index (c.cutTo body) s text style (d.cutTo left) u := by
  cases hg c.beginToken body after s h hlf with
  | @kept text left hcut hne htook htook' hstyle hstate =>
    have hcomp := hm.goesOn hr h.not_closes htook hne index
    have halone := Tokenizer.goesOn_of_took (c := c.cutTo body) htook' hne index
    have hrest := h.rest
    rw [hcut, List.append_assoc] at hrest
    rw [hcut] at htook'
    rw [Cursor.cutTo_beginToken, hstyle, hstate, hcut,
      ← Cursor.cutTo_eq_of_took htook htook'] at halone
    exact .inr ⟨text, left, _, _, _, _, hcut, hne, htook.rest_eq hrest, rfl, hcomp, hcut ▸ halone⟩
  | cut hcloses htook htook' hstyle =>
    exact .inl (hm.aligned_of_cut hr h hcloses htook htook' hstyle index)
  | @split first text left hcut hne htook htook' hstyle hstate hagain =>
    have hcomp := hm.goesOn hr h.not_closes htook (by simp) index
    have halone := goesOn_of_split htook hcut htook' hne hstyle hstate hagain index
    have hrest := h.rest
    rw [hcut] at hrest
    exact .inr ⟨[first], text ++ left, _, _, _, _, hcut, by simp, htook.rest_eq hrest, rfl, hcomp,
      halone⟩
  | shrunk hafter hcut hopener htook htook' hstate =>
    exact .inl (hm.aligned_of_shrunk hr h hafter hcut hopener htook htook' hstate index)

/-- **The readings of a body are aligned.** -/
theorem Embeds.aligned (hm : m.Embeds t wrap e) (hg : e.Guards t) (index : Nat)
    (hr : st.region = some (wrap s)) (hrest : c.rest = body ++ after) (hclear : e.Clear body after)
    (hends : after = [] ∨ e.Closes after) (hlf : '\n' ∉ body ++ after) :
    m.Aligned t wrap index c body after st s := by
  -- the induction is on the size of the body, of which every call of the composite takes some
  induction hn : body.length using Nat.strongRecOn generalizing c body st s with
  | ind n ih =>
    by_cases hbody : body = []
    · subst hbody
      have halone := Tokenizer.readFrom_of_atEnd t (c := c.cutTo []) rfl index s
      refine .through hrest ?_ rfl ?_
      · rw [halone]
        rfl
      · intro _
        rw [halone, hr]
    · have hahead : e.Ahead c.beginToken body after := ⟨rfl, hrest, hbody, hclear, hends⟩
      rcases hm.aligned_or_goesOn hg hr hahead hlf index with
        h | ⟨text, left, style, d, st', u, rfl, hne, hleft, hr', hcomp, halone⟩
      · exact h
      · have hlength := List.length_pos_iff.mpr hne
        refine .of_goesOn hcomp halone (ih _ ?_ hr' hleft hclear.drop ?_ rfl)
        · rw [← hn, List.length_append]
          omega
        · rw [List.append_assoc, List.mem_append, not_or] at hlf
          exact hlf.2

/-! ## The library's tokenizers -/

theorem guards_script (e : EmbeddingElement) (o : Options) : e.Guards (Script.tokenizer o) :=
  fun _ _ _ s h hlf => Script.token_fate o h hlf s

theorem guards_style (e : EmbeddingElement) (o : Options) : e.Guards (Stylesheet.tokenizer o) :=
  fun _ _ _ s h _ => Stylesheet.token_fate o h s

theorem html_embeds_script (o : Options) (types : TypePatterns) :
    (html o types).Embeds (Script.tokenizer o) .script .script where
  element := fun _ => rfl
  token := fun _ _ => rfl

theorem html_embeds_style (o : Options) (types : TypePatterns) :
    (html o types).Embeds (Stylesheet.tokenizer o) .style .style where
  element := fun _ => rfl
  token := fun _ _ => rfl

end Composite

end Mixed

end MixedMarkup
