import MixedMarkup.Proofs.ClosingTag
import MixedMarkup.Proofs.TagStages
import Mathlib.Order.Bounds.Basic
/-!
# Mixed documents — how a region ends

The embedded tokenizers are any that consume. Inside a region every call
keeps the host as it was and the region open, and its token stops short
of the first closing tag (`token_of_region`); by induction on the text up
to that tag the calls of a region come to stand on it, wherever the
tokens are cut (`exists_run_of_clear`). `region_exit` says the same of
byte offsets and of the spans that the line driver makes.
-/

namespace MixedMarkup

open Text

/-! ## Offsets ahead of the cursor -/

namespace Text

/-- A later cut of a text goes through what follows an earlier one. -/
theorem exists_append_of_byteSize_le {a b a' b' : List Char} (h : a ++ b = a' ++ b')
    (hle : byteSize a ≤ byteSize a') : ∃ u, a' = a ++ u ∧ b = u ++ b' := by
  rcases List.append_eq_append_iff.mp h with ⟨u, hu, hb⟩ | ⟨u, hu, hb⟩
  · exact ⟨u, hu, hb⟩
  · cases u with
    | nil => exact ⟨[], by simpa using hu.symm, by simpa using hb.symm⟩
    | cons c cs =>
      have := c.utf8Size_pos
      rw [hu, byteSize_append, byteSize_cons] at hle
      omega

end Text

namespace HostTokenizer

variable {η : Type}

/-- A token that begins with `<` opens no element. -/
def OpensPastDelimiters (h : HostTokenizer η) : Prop :=
  ∀ (c : Cursor) (s : η), c.token = [] → c.peek? = some '<' →
    h.openedElement (h.token c s).state = none

end HostTokenizer

/-- The markup tokenizers open elements at the end of a tag only. -/
theorem Markup.Setup.opensPastDelimiters (m : Markup.Setup) :
    m.tokenizer.OpensPastDelimiters := by
  intro c s hc hpeek
  have hrest : c.rest ≠ [] := by
    intro hnil
    simp [Cursor.peek?, hnil] at hpeek
  cases he : m.tokenizer.openedElement (m.tokenizer.token c s).state with
  | none => rfl
  | some e =>
    obtain ⟨hend, -⟩ := (m.openedElement_token_iff hc hrest).mp he
    have := peek?_of_endTag hc hrest hend
    simp [hpeek] at this

namespace Mixed

namespace EmbeddingElement

variable {e : EmbeddingElement} {c : Cursor} {k : Nat}

/-- A place ahead of the cursor at which the closing tag stands cuts what
is left of the line before the tag. -/
theorem exists_rest_of_closesAtOffset (hle : c.pos ≤ k) (h : e.ClosesAtOffset c.line k) :
    ∃ body after, c.rest = body ++ after ∧ c.pos + byteSize body = k ∧ e.Closes after := by
  obtain ⟨before, after, hline, rfl, hafter⟩ := h
  rw [Cursor.line, ← List.append_assoc] at hline
  rw [Cursor.pos_eq] at hle
  obtain ⟨body, hbody, hrest⟩ := exists_append_of_byteSize_le hline hle
  exact ⟨body, after, hrest, by rw [hbody, byteSize_append, Cursor.pos_eq], hafter⟩

/-- And the other way round. -/
theorem closesAtOffset_of_rest {body after : List Char} (hrest : c.rest = body ++ after)
    (hafter : e.Closes after) : e.ClosesAtOffset c.line (c.pos + byteSize body) := by
  refine ⟨(c.before ++ c.token) ++ body, after, ?_, ?_, hafter⟩
  · rw [Cursor.line, hrest]
    simp
  · rw [byteSize_append, Cursor.pos_eq]

/-- **The closing tag that comes first ahead of the cursor ends a clear
part.** -/
theorem isLeast_iff_clear :
    IsLeast {k | c.pos ≤ k ∧ e.ClosesAtOffset c.line k} k ↔
      ∃ body after, c.rest = body ++ after ∧ c.pos + byteSize body = k ∧ e.Closes after ∧
        e.Clear body after := by
  constructor
  · rintro ⟨⟨hle, hcloses⟩, hleast⟩
    obtain ⟨body, after, hrest, rfl, hafter⟩ := exists_rest_of_closesAtOffset hle hcloses
    refine ⟨body, after, hrest, rfl, hafter, ?_⟩
    -- a tag inside the body would come before the first one
    intro skipped left hbody hne hinside
    rw [hbody, List.append_assoc] at hrest
    have hlow := hleast ⟨Nat.le_add_right _ _, closesAtOffset_of_rest hrest hinside⟩
    cases left with
    | nil => exact hne rfl
    | cons ch _ =>
      have := ch.utf8Size_pos
      simp only [hbody, byteSize_append, byteSize_cons] at hlow
      omega
  · rintro ⟨body, after, hrest, rfl, hafter, hclear⟩
    refine ⟨⟨Nat.le_add_right _ _, closesAtOffset_of_rest hrest hafter⟩, ?_⟩
    rintro k ⟨hle, hcloses⟩
    obtain ⟨body', after', hrest', rfl, hafter'⟩ := exists_rest_of_closesAtOffset hle hcloses
    -- a tag before `k` would start inside the clear part
    by_contra hlt
    obtain ⟨left, hbody, hcut⟩ :=
      exists_append_of_byteSize_le (hrest'.symm.trans hrest) (by omega)
    refine hclear body' left hbody ?_ (hcut ▸ hafter')
    rintro rfl
    rw [List.append_nil] at hbody
    exact hlt (hbody ▸ le_rfl)

/-- **Where no closing tag comes, all that is left is clear.** -/
theorem forall_not_iff_clear :
    (∀ k, c.pos ≤ k → ¬ e.ClosesAtOffset c.line k) ↔ e.Clear c.rest [] := by
  constructor
  · intro h skipped left hskip _ hcloses
    rw [List.append_nil] at hcloses
    exact h _ (Nat.le_add_right _ _) (closesAtOffset_of_rest hskip hcloses)
  · intro hclear k hle hcloses
    obtain ⟨body, after, hrest, -, hafter⟩ := exists_rest_of_closesAtOffset hle hcloses
    obtain ⟨left, hleft⟩ := hafter.exists_cons
    refine hclear body after hrest (by simp [hleft]) ?_
    rwa [List.append_nil]

end EmbeddingElement

/-! ## Regions -/

namespace Region

variable {σ κ σ' κ' : Type}

/-- The grammar of a region tells whose body it is. -/
theorem element_eq_of_grammar_eq {r : Region σ κ} {r' : Region σ' κ'}
    (h : r.grammar = r'.grammar) : r.element = r'.element := by
  cases r <;> cases r' <;> first | rfl | simp [grammar] at h

/-- A region is not the host's. -/
theorem grammar_ne_host (r : Region σ κ) : r.grammar ≠ .host := by
  cases r <;> simp [grammar]

end Region

theorem State.active_of_region {η σ κ : Type} {s : State η σ κ} {r : Region σ κ}
    (h : s.region = some r) : s.active = r.grammar := by
  simp [State.active, h]

namespace Composite

variable {η σ κ φ : Type} {m : Composite η σ κ φ}

/-- The tokenizers of the regions consume. -/
structure EmbedsConsuming (m : Composite η σ κ φ) : Prop where
  script : m.script.Consumes
  style : m.style.Consumes
  fallback : m.fallback.Consumes

/-- The tokenizer of a region moves the cursor, and the region stays of its
kind. -/
theorem EmbedsConsuming.regionToken (hm : m.EmbedsConsuming) {c : Cursor} (hc : c.token = [])
    (hrest : c.rest ≠ []) (r : Region σ κ) :
    c.Advances (m.regionToken c r).cursor ∧ (m.regionToken c r).state.grammar = r.grammar := by
  cases r with
  | script s => exact ⟨hm.script c s hc hrest, rfl⟩
  | style s => exact ⟨hm.style c s hc hrest, rfl⟩
  | unknown => exact ⟨hm.fallback c _ hc hrest, rfl⟩

theorem html_embedsConsuming (o : Options) (types : TypePatterns) :
    (html o types).EmbedsConsuming where
  script := Script.tokenizer_consumes o
  style := Stylesheet.tokenizer_consumes o
  fallback := Plain.tokenizer_consumes

variable {c : Cursor} {s : State η σ κ} {r : Region σ κ}

/-- **On its closing tag a region is left**: the call is the host's, from
the state that the host was left in. -/
theorem token_of_closes (hr : s.region = some r) (h : r.element.Closes c.rest) :
    m.token c s = m.hostToken c s.host := by
  rw [token, hr]
  simp only [EmbeddingElement.closesAt_iff.mpr h, if_true]

/-- Elsewhere the region's tokenizer reads, and its token is trimmed. -/
theorem token_of_not_closes (hr : s.region = some r) (h : ¬ r.element.Closes c.rest) :
    m.token c s = ⟨(m.regionToken c r).style, r.element.trim (m.regionToken c r).cursor,
      ⟨s.host, some (m.regionToken c r).state, r.grammar⟩⟩ := by
  have hcloses : r.element.closesAt c.rest = false := by
    rw [← Bool.not_eq_true, EmbeddingElement.closesAt_iff]
    exact h
  rw [token, hr]
  simp only [hcloses, Bool.false_eq_true, if_false]

/-- **Such a call stays in its region.** The host is kept, the region
is of the same kind, and the token stops short of the first closing
tag. -/
theorem token_of_region (hm : m.EmbedsConsuming) (hr : s.region = some r) (hc : c.token = [])
    (hrest : c.rest ≠ []) (hopen : ¬ r.element.Closes c.rest) :
    ∃ kept r', kept ≠ [] ∧ c.Took kept (m.token c s).cursor ∧
      r.element.Clear kept (m.token c s).cursor.rest ∧
      (m.token c s).state = ⟨s.host, some r', r.grammar⟩ ∧ r'.grammar = r.grammar := by
  obtain ⟨hadv, hkind⟩ := hm.regionToken hc hrest r
  obtain ⟨kept, hne, htook, hclear⟩ := EmbeddingElement.trim_took hc hadv hopen
  rw [token_of_not_closes hr hopen]
  exact ⟨kept, _, hne, htook, hclear, rfl, hkind⟩

/-- A token of a region lies before the end of a clear part that a closing
tag or the end of the line ends. -/
theorem exists_left_of_clear {e : EmbeddingElement} {kept rest body after : List Char}
    (hcut : body ++ after = kept ++ rest) (hkept : e.Clear kept rest)
    (hend : after = [] ∨ e.Closes after) : ∃ left, body = kept ++ left ∧ rest = left ++ after := by
  rcases List.append_eq_append_iff.mp hcut with ⟨u, hu, hafter⟩ | ⟨u, hu, hrest⟩
  · cases u with
    | nil => exact ⟨[], by simpa using hu.symm, by simpa using hafter.symm⟩
    | cons ch cs =>
      rcases hend with hnil | hcloses
      · simp [hnil] at hafter
      · -- the token would reach over the end, and the tag would start inside it
        rw [hafter] at hcloses
        exact absurd hcloses (hkept body (ch :: cs) hu (by simp))
  · exact ⟨u, hu, hrest⟩

/-- **The calls of a region come to stand on its end.** Whatever tokens the
embedded tokenizers make, they divide the text up to the closing tag, or
up to the end of the line where there is none, and the state changes in
the region's own part only. -/
theorem exists_run_of_clear (hm : m.EmbedsConsuming) (n : Nat) :
    ∀ (c : Cursor) (s : State η σ κ) (r : Region σ κ) (body after : List Char),
      body.length ≤ n → s.region = some r → c.rest = body ++ after →
      r.element.Clear body after → (after = [] ∨ r.element.Closes after) →
      ∃ calls d s' r', m.tokenizer.Run c s calls d s' ∧ d.rest = after ∧
        (∀ k ∈ calls, (m.tokenizer.stepOf k).state.last = r.grammar) ∧
        s'.host = s.host ∧ s'.region = some r' ∧ r'.grammar = r.grammar := by
  -- the induction is on the size of the text before the end, which every call makes smaller
  induction n with
  | zero =>
    intro c s r body after hn hr hrest _ _
    have hbody : body = [] := List.length_eq_zero_iff.mp (by omega)
    rw [hbody, List.nil_append] at hrest
    exact ⟨[], c, s, r, .done c s, hrest, by simp, rfl, hr, rfl⟩
  | succ n ih =>
    intro c s r body after hn hr hrest hclear hend
    by_cases hbody : body = []
    · rw [hbody, List.nil_append] at hrest
      exact ⟨[], c, s, r, .done c s, hrest, by simp, rfl, hr, rfl⟩
    · have hopen : ¬ r.element.Closes c.rest := hrest ▸ hclear [] body rfl hbody
      have hne : c.rest ≠ [] := by simp [hrest, hbody]
      obtain ⟨kept, r₁, hkept, htook, hfree, hstate, hkind⟩ :=
        token_of_region (c := c.beginToken) hm hr rfl hne hopen
      obtain ⟨left, rfl, hleft⟩ :=
        exists_left_of_clear (hrest.symm.trans htook.rest) hfree hend
      have helement : r₁.element = r.element := Region.element_eq_of_grammar_eq hkind
      have hlength : left.length ≤ n := by
        have : 0 < kept.length := List.length_pos_iff.mpr hkept
        rw [List.length_append] at hn
        omega
      -- what the token leaves of the text is clear again, and the region is of its kind
      obtain ⟨calls, d, s', r', hrun, hd, hlast, hhost, hr', hgrammar⟩ :=
        ih (m.token c.beginToken s).cursor (m.token c.beginToken s).state r₁ left after hlength
          (by rw [hstate]) hleft (helement ▸ hclear.drop) (helement ▸ hend)
      refine ⟨_, d, s', r', .call ⟨kept, hkept, htook⟩ hrun, hd, ?_, ?_, hr', hgrammar.trans hkind⟩
      · intro k hk
        rcases List.mem_cons.mp hk with rfl | hk
        · change (m.token c.beginToken s).state.last = r.grammar
          rw [hstate]
        · rw [hlast k hk, hkind]
      · rw [hhost, hstate]

/-- **Region exit is exact.** The embedded tokenizers are any that consume,
the state is any with an open region, and the place is any at which a
token starts. If `k` is the first offset from there on at which the
region's closing tag stands, the spans made from there on tile the line
up to `k` and are all of the region's grammar; the next call starts at
`k`, is the host's from the state the host was left in, and counts as the
host's. If the tag stands nowhere ahead, the spans up to the end of the
line are of the region's grammar, and the region is open there. -/
theorem region_exit (hm : m.EmbedsConsuming) (index : Nat) (c : Cursor) (s : State η σ κ)
    (r : Region σ κ) (hr : s.region = some r) :
    (∀ k, IsLeast {k | c.pos ≤ k ∧ r.element.ClosesAtOffset c.line k} k →
      ∃ calls d s', m.tokenizer.Run c s calls d s' ∧
        m.tokenizer.readFrom index c s = { m.tokenizer.readFrom index d s' with
          spans := calls.map (m.tokenizer.callSpan index) ++
            (m.tokenizer.readFrom index d s').spans } ∧
        Tiles c.line c.pos (calls.map (m.tokenizer.callSpan index)) k ∧
        (∀ call ∈ calls, (m.tokenizer.stepOf call).state.last = r.grammar) ∧
        d.atEnd = false ∧ d.beginToken.start = k ∧
        m.tokenizer.token d.beginToken s' = m.hostToken d.beginToken s.host ∧
        (m.tokenizer.token d.beginToken s').state.last = .host ∧
        (m.host.OpensPastDelimiters →
          (m.tokenizer.token d.beginToken s').state.region = none)) ∧
    ((∀ k, c.pos ≤ k → ¬ r.element.ClosesAtOffset c.line k) →
      ∃ calls d s', m.tokenizer.Run c s calls d s' ∧
        m.tokenizer.readFrom index c s = ⟨calls.map (m.tokenizer.callSpan index), s', none⟩ ∧
        Tiles c.line c.pos (calls.map (m.tokenizer.callSpan index)) (byteSize c.line) ∧
        (∀ call ∈ calls, (m.tokenizer.stepOf call).state.last = r.grammar) ∧
        s'.active = r.grammar) := by
  constructor
  · intro k hk
    obtain ⟨body, after, hrest, hpos, hcloses, hclear⟩ := EmbeddingElement.isLeast_iff_clear.mp hk
    obtain ⟨calls, d, s', r', hrun, hd, hlast, hhost, hr', hgrammar⟩ :=
      exists_run_of_clear hm _ c s r body after le_rfl hr hrest hclear (Or.inr hcloses)
    have hpos' : d.pos = k := hpos ▸ hrun.pos_eq hrest hd
    have hcloses' : r'.element.Closes d.beginToken.rest := by
      rw [Cursor.rest_beginToken, hd, Region.element_eq_of_grammar_eq hgrammar]
      exact hcloses
    have htoken : m.token d.beginToken s' = m.hostToken d.beginToken s.host := by
      rw [token_of_closes hr' hcloses', hhost]
    refine ⟨calls, d, s', hrun, hrun.readFrom_eq index, hpos' ▸ hrun.tiles index, hlast, ?_, ?_,
      htoken, ?_, ?_⟩
    · obtain ⟨left, hleft⟩ := hcloses.exists_cons
      simp [Cursor.atEnd, hd, hleft]
    · rw [← hpos', Cursor.pos_eq, Cursor.start, Cursor.beginToken]
    · change (m.token d.beginToken s').state.last = .host
      rw [htoken]
      rfl
    · intro hopens
      obtain ⟨left, hleft⟩ := hcloses.exists_cons
      change (m.token d.beginToken s').state.region = none
      rw [htoken]
      have hnone := hopens d.beginToken s.host rfl (by simp [Cursor.peek?, hd, hleft])
      simp [hostToken, hnone]
  · intro hnone
    have hclear := EmbeddingElement.forall_not_iff_clear.mp hnone
    obtain ⟨calls, d, s', r', hrun, hd, hlast, -, hr', hgrammar⟩ :=
      exists_run_of_clear hm _ c s r c.rest [] le_rfl hr (List.append_nil _).symm hclear
        (Or.inl rfl)
    have hread := hrun.readFrom_eq index
    rw [Tokenizer.readFrom_of_atEnd _ hd, List.append_nil] at hread
    have hpos : d.pos = byteSize c.line := by
      rw [← hrun.line, Cursor.line, hd, Cursor.pos_eq, List.append_nil]
    exact ⟨calls, d, s', hrun, hread, hpos ▸ hrun.tiles index, hlast,
      (State.active_of_region hr').trans hgrammar⟩

/-- A state inside a script, for the two lines below. -/
def insideScript : State Markup.State Script.State Stylesheet.State :=
  ⟨.initial 0, some (.script (.initial 0)), .script⟩

/-- A string runs past the closing tag, and the region ends inside it; a
string that is torn off with the line does not end the region. -/
theorem region_exit_in_string :
    (html {} .standard).EmbedsConsuming ∧ insideScript.region = some (.script (.initial 0)) ∧
    IsLeast {k | (Cursor.ofLine "'a</ ScRiPt >b'".toList).pos ≤ k ∧
      EmbeddingElement.script.ClosesAtOffset (Cursor.ofLine "'a</ ScRiPt >b'".toList).line k} 2 ∧
    (∃ calls d s', (html {} .standard).tokenizer.Run (.ofLine "'a</ ScRiPt >b'".toList)
        insideScript calls d s' ∧
      Tiles "'a</ ScRiPt >b'".toList 0 (calls.map ((html {} .standard).tokenizer.callSpan 0)) 2 ∧
      d.beginToken.start = 2 ∧
      ((html {} .standard).tokenizer.token d.beginToken s').state.region = none) ∧
    ∃ calls d s', (html {} .standard).tokenizer.Run (.ofLine "'a </scr".toList)
        insideScript calls d s' ∧ s'.active = .script := by
  have hm := html_embedsConsuming {} .standard
  have hleast : IsLeast {k | (Cursor.ofLine "'a</ ScRiPt >b'".toList).pos ≤ k ∧
      EmbeddingElement.script.ClosesAtOffset
        (Cursor.ofLine "'a</ ScRiPt >b'".toList).line k} 2 := by
    rw [EmbeddingElement.isLeast_iff_clear]
    obtain ⟨body, after, hrest, hsize, hafter, hclear⟩ := EmbeddingElement.findClosing?_eq_some
      (by decide : EmbeddingElement.script.findClosing? "'a</ ScRiPt >b'".toList = some 2)
    exact ⟨body, after, hrest, by rw [hsize]; rfl, hafter, hclear⟩
  have hnone : ∀ k, (Cursor.ofLine "'a </scr".toList).pos ≤ k →
      ¬ EmbeddingElement.script.ClosesAtOffset (Cursor.ofLine "'a </scr".toList).line k := by
    rw [EmbeddingElement.forall_not_iff_clear]
    exact EmbeddingElement.clear_of_findClosing?_eq_none (by decide)
  obtain ⟨calls, d, s', hrun, -, htiles, -, -, hstart, -, -, hdropped⟩ :=
    (region_exit hm 0 _ insideScript _ rfl).1 2 hleast
  obtain ⟨calls', d', s'', hrun', -, -, -, hactive⟩ :=
    (region_exit hm 0 _ insideScript _ rfl).2 hnone
  exact ⟨hm, rfl, hleast, ⟨calls, d, s', hrun, htiles, hstart,
    hdropped (Markup.Setup.opensPastDelimiters _)⟩, calls', d', s'', hrun', hactive⟩

end Composite

end Mixed

end MixedMarkup
