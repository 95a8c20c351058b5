import MixedMarkup.Proofs.Coverage
import MixedMarkup.Proofs.History
/-!
# Mixed documents — regions do not depend on what is embedded

Two composites with one host and one set of script types are out of step
inside a region, where each cuts the text its own way. They meet again at
every end of a region: a leg takes both from a common place to the next
one, over a token of the host or over the whole of a region
(`exists_leg`). Along legs the grammars of the bytes, the spans of the
host and the host's states stay the same, to the end of the line
(`exists_legs`) and so to the end of the document.
-/

namespace MixedMarkup

namespace Mixed

open Text

variable {η σ κ φ σ' κ' φ' : Type}

/-- Two states with the same host in the same grammar; what the embedded
tokenizers carry may differ. -/
structure SameShape (s : State η σ κ) (s' : State η σ' κ') : Prop where
  host : s.host = s'.host
  active : s.active = s'.active

namespace Composite

/-- The grammars of the bytes that calls read, one for each byte. -/
def labels (m : Composite η σ κ φ) (calls : List (Call (State η σ κ))) : List Grammar :=
  calls.flatMap fun k =>
    List.replicate (byteSize (m.tokenizer.textOf k)) (m.tokenizer.stepOf k).state.last

/-- The spans of the calls that the host answered, on line `index`. -/
def hostSpans (m : Composite η σ κ φ) (index : Nat) (calls : List (Call (State η σ κ))) :
    List Span :=
  (calls.filter fun k => (m.tokenizer.stepOf k).state.last = .host).map
    (m.tokenizer.callSpan index)

/-- The grammars of the bytes of a document, line by line. -/
def labelsOn (m : Composite η σ κ φ) (index : Nat) (lines : List (List Char))
    (s : State η σ κ) : List (List Grammar) :=
  (m.tokenizer.callsByLine index lines s).map m.labels

/-- The spans of a document that the host made. -/
def hostSpansOn (m : Composite η σ κ φ) (index : Nat) (lines : List (List Char))
    (s : State η σ κ) : List Span :=
  ((m.tokenizer.callsByLine index lines s).zipIdx index).flatMap fun p => m.hostSpans p.2 p.1

variable {m : Composite η σ κ φ} {m' : Composite η σ' κ' φ'}
variable {calls more : List (Call (State η σ κ))}

@[simp] theorem labels_append : m.labels (calls ++ more) = m.labels calls ++ m.labels more := by
  simp [labels]

theorem labels_singleton {c : Cursor} {s : State η σ κ} :
    m.labels [⟨c, s⟩] =
      List.replicate (byteSize (m.token c s).cursor.token) (m.token c s).state.last := by
  simp only [labels, List.flatMap_singleton]
  rfl

theorem hostSpans_singleton {c : Cursor} {s : State η σ κ} {index : Nat}
    (h : (m.token c s).state.last = .host) :
    m.hostSpans index [⟨c, s⟩] = [m.tokenizer.spanOf index (m.token c s)] := by
  have hlast : (m.tokenizer.stepOf ⟨c, s⟩).state.last = .host := h
  simp only [hostSpans, List.filter_cons, hlast, decide_true, if_true, List.filter_nil,
    List.map_cons, List.map_nil]
  rfl

@[simp] theorem hostSpans_append (index : Nat) :
    m.hostSpans index (calls ++ more) = m.hostSpans index calls ++ m.hostSpans index more := by
  simp [hostSpans]

/-- As many grammars as bytes. -/
theorem length_labels : (m.labels calls).length = byteSize (calls.flatMap m.tokenizer.textOf) := by
  induction calls with
  | nil => rfl
  | cons k calls ih =>
    rw [List.flatMap_cons, byteSize_append, ← ih]
    simp [labels]

/-- Calls of one grammar give it to all their bytes. -/
theorem labels_eq_replicate {g : Grammar}
    (h : ∀ k ∈ calls, (m.tokenizer.stepOf k).state.last = g) :
    m.labels calls = List.replicate (byteSize (calls.flatMap m.tokenizer.textOf)) g := by
  rw [← length_labels, List.eq_replicate_iff]
  refine ⟨rfl, ?_⟩
  intro x hx
  simp only [labels, List.mem_flatMap] at hx
  obtain ⟨k, hk, hx⟩ := hx
  rw [List.eq_of_mem_replicate hx]
  exact h k hk

/-- And no spans to the host, unless it is theirs. -/
theorem hostSpans_eq_nil {g : Grammar} (hg : g ≠ .host)
    (h : ∀ k ∈ calls, (m.tokenizer.stepOf k).state.last = g) (index : Nat) :
    m.hostSpans index calls = [] := by
  rw [hostSpans, List.map_eq_nil_iff, List.filter_eq_nil_iff]
  intro k hk
  rw [h k hk]
  simpa using hg

/-! ## One leg -/

/-- The host's tokens open the same kind of region in both. -/
theorem active_regionOf? (htypes : m.types = m'.types) (element : String) (line : List Char)
    (host : η) :
    (m.regionOf? element line host).elim .host Region.grammar =
      (m'.regionOf? element line host).elim .host Region.grammar := by
  unfold regionOf?
  simp only [htypes]
  split
  · split <;> rfl
  · split <;> rfl

/-- **A call of the host is the same call in both**: it reads the same
token and leaves states of the same shape. -/
theorem sameShape_hostToken (hhost : m.host = m'.host) (htypes : m.types = m'.types)
    (c : Cursor) (host : η) :
    (m.hostToken c host).style = (m'.hostToken c host).style ∧
      (m.hostToken c host).cursor = (m'.hostToken c host).cursor ∧
      SameShape (m.hostToken c host).state (m'.hostToken c host).state := by
  refine ⟨?_, ?_, ?_, ?_⟩
  · simp only [hostToken, hhost]
  · simp only [hostToken, hhost]
  · simp only [hostToken, hhost]
  · simp only [hostToken, State.active, hhost]
    cases (m'.host.openedElement (m'.host.token c host).state) with
    | none => rfl
    | some element => exact active_regionOf? htypes element _ _

/-- Both composites go from a common place to a common place. What they
read on the way may be cut differently, but its bytes are of the same
grammars, and the host reads the same spans of it. -/
structure Leg (m : Composite η σ κ φ) (m' : Composite η σ' κ' φ')
    (c : Cursor) (s : State η σ κ) (calls : List (Call (State η σ κ))) (d : Cursor)
    (t : State η σ κ) (c' : Cursor) (s' : State η σ' κ') (calls' : List (Call (State η σ' κ')))
    (d' : Cursor) (t' : State η σ' κ') : Prop where
  run : m.tokenizer.Run c s calls d t
  run' : m'.tokenizer.Run c' s' calls' d' t'
  labels_eq : m.labels calls = m'.labels calls'
  hostSpans_eq : ∀ index, m.hostSpans index calls = m'.hostSpans index calls'
  place : d.beginToken = d'.beginToken
  shape : SameShape t t'

section Legs

variable {c d e c' d' e' : Cursor} {s t u : State η σ κ} {s' t' u' : State η σ' κ'}
variable {calls' more' : List (Call (State η σ' κ'))}

theorem Leg.append (h : Leg m m' c s calls d t c' s' calls' d' t')
    (h' : Leg m m' d t more e u d' t' more' e' u') :
    Leg m m' c s (calls ++ more) e u c' s' (calls' ++ more') e' u' where
  run := h.run.append h'.run
  run' := h.run'.append h'.run'
  labels_eq := by rw [labels_append, labels_append, h.labels_eq, h'.labels_eq]
  hostSpans_eq := by
    intro index
    rw [hostSpans_append, hostSpans_append, h.hostSpans_eq, h'.hostSpans_eq]
  place := h'.place
  shape := h'.shape

/-- A leg over one token of the host. -/
theorem leg_of_hostToken (hhost : m.host = m'.host) (htypes : m.types = m'.types)
    (hconsumes : m.host.Consumes) (hplace : c.beginToken = c'.beginToken) (hrest : c.rest ≠ [])
    (hhosts : s.host = s'.host) (hs : m.token c.beginToken s = m.hostToken c.beginToken s.host)
    (hs' : m'.token c'.beginToken s' = m'.hostToken c'.beginToken s'.host) :
    Leg m m' c s [⟨c.beginToken, s⟩] (m.token c.beginToken s).cursor (m.token c.beginToken s).state
      c' s' [⟨c'.beginToken, s'⟩] (m'.token c'.beginToken s').cursor
      (m'.token c'.beginToken s').state := by
  obtain ⟨hstyle, hcursor, hshape⟩ := sameShape_hostToken hhost htypes c.beginToken s.host
  have hstep : m'.token c'.beginToken s' = m'.hostToken c.beginToken s.host := by
    rw [hs', hplace, hhosts]
  have hadv : c.beginToken.Advances (m.hostToken c.beginToken s.host).cursor :=
    hconsumes c.beginToken s.host rfl hrest
  refine ⟨.single ?_, .single ?_, ?_, ?_, ?_, ?_⟩
  · change c.beginToken.Advances (m.token c.beginToken s).cursor
    rw [hs]
    exact hadv
  · change c'.beginToken.Advances (m'.token c'.beginToken s').cursor
    rw [hstep, ← hcursor, ← hplace]
    exact hadv
  · rw [labels_singleton, labels_singleton, hs, hstep, hcursor]
    rfl
  · intro index
    have hlast : (m.token c.beginToken s).state.last = .host := by
      rw [hs]
      rfl
    have hlast' : (m'.token c'.beginToken s').state.last = .host := by
      rw [hstep]
      rfl
    rw [hostSpans_singleton hlast, hostSpans_singleton hlast', hs, hstep]
    simp only [Tokenizer.spanOf, hstyle, hcursor]
    simp only [tokenizer, grammarName, hostToken, hhost]
  · rw [hs, hstep, hcursor]
  · rw [hs, hstep]
    exact hshape

/-- A leg over what is left of a region on the line. -/
theorem leg_of_region {r : Region σ κ} {r' : Region σ' κ'} (hm : m.EmbedsConsuming)
    (hm' : m'.EmbedsConsuming) (hplace : c.beginToken = c'.beginToken) (hhosts : s.host = s'.host)
    (hr : s.region = some r) (hr' : s'.region = some r') (hkind : r.grammar = r'.grammar)
    (hrest : c.rest ≠ []) (hopen : ¬ r.element.Closes c.rest) :
    ∃ calls d t calls' d' t', Leg m m' c s calls d t c' s' calls' d' t' ∧
      d.rest.length < c.rest.length := by
  obtain ⟨hline, hsame, htab⟩ := Cursor.beginToken_eq_iff.mp hplace
  obtain ⟨body, after, hbody, hclear, hend⟩ := r.element.exists_clear c.rest
  have hne : body ≠ [] := by
    rintro rfl
    rw [List.nil_append] at hbody
    rcases hend with hnil | hcloses
    · exact hrest (hbody.trans hnil)
    · exact hopen (hbody ▸ hcloses)
  have helement : r.element = r'.element := Region.element_eq_of_grammar_eq hkind
  obtain ⟨calls, d, t, q, hrun, hd, hlast, hhost, hq, hgrammar⟩ :=
    exists_run_of_clear hm _ c s r body after le_rfl hr hbody hclear hend
  obtain ⟨calls', d', t', q', hrun', hd', hlast', hhost', hq', hgrammar'⟩ :=
    exists_run_of_clear hm' _ c' s' r' body after le_rfl hr' (hsame ▸ hbody)
      (helement ▸ hclear) (helement ▸ hend)
  -- the tokens are cut in two ways, but they are tokens of one text
  have htext : calls.flatMap m.tokenizer.textOf = body := by
    have h := hrun.rest
    rw [hbody, hd] at h
    exact (List.append_cancel_right h).symm
  have htext' : calls'.flatMap m'.tokenizer.textOf = body := by
    have h := hrun'.rest
    rw [← hsame, hbody, hd'] at h
    exact (List.append_cancel_right h).symm
  refine ⟨calls, d, t, calls', d', t', ⟨hrun, hrun', ?_, ?_, ?_, ?_, ?_⟩, ?_⟩
  · rw [labels_eq_replicate hlast, labels_eq_replicate hlast', htext, htext', hkind]
  · intro index
    rw [hostSpans_eq_nil r.grammar_ne_host hlast, hostSpans_eq_nil r'.grammar_ne_host hlast']
  · refine Cursor.beginToken_eq_iff.mpr ⟨?_, hd.trans hd'.symm, ?_⟩
    · rw [hrun.line, hrun'.line, hline]
    · rw [hrun.tabSize, hrun'.tabSize, htab]
  · rw [hhost, hhost', hhosts]
  · rw [State.active_of_region hq, State.active_of_region hq', hgrammar, hgrammar', hkind]
  · have hpos : 0 < body.length := List.length_pos_iff.mpr hne
    rw [hbody, hd, List.length_append]
    omega

/-- **From a common place there is a leg to the next one**, as long as
there is something left of the line. -/
theorem exists_leg (hhost : m.host = m'.host) (htypes : m.types = m'.types)
    (hconsumes : m.host.Consumes) (hm : m.EmbedsConsuming) (hm' : m'.EmbedsConsuming)
    (hplace : c.beginToken = c'.beginToken) (hshape : SameShape s s') (hrest : c.rest ≠ []) :
    ∃ calls d t calls' d' t', Leg m m' c s calls d t c' s' calls' d' t' ∧
      d.rest.length < c.rest.length := by
  obtain ⟨-, hsame, -⟩ := Cursor.beginToken_eq_iff.mp hplace
  have hactive := hshape.active
  have hleg (hs : m.token c.beginToken s = m.hostToken c.beginToken s.host)
      (hs' : m'.token c'.beginToken s' = m'.hostToken c'.beginToken s'.host) :
      ∃ calls d t calls' d' t', Leg m m' c s calls d t c' s' calls' d' t' ∧
        d.rest.length < c.rest.length := by
    refine ⟨_, _, _, _, _, _,
      leg_of_hostToken hhost htypes hconsumes hplace hrest hshape.host hs hs', ?_⟩
    rw [hs]
    exact (hconsumes c.beginToken s.host rfl hrest).rest_lt
  -- the grammars are the same, so both are in the host or in regions of one kind
  cases hr : s.region with
  | none =>
    cases hr' : s'.region with
    | none =>
      refine hleg ?_ ?_
      · rw [token, hr]
      · rw [token, hr']
    | some r' =>
      rw [State.active_of_region hr', State.active, hr] at hactive
      exact absurd hactive.symm r'.grammar_ne_host
  | some r =>
    cases hr' : s'.region with
    | none =>
      rw [State.active_of_region hr, State.active, hr'] at hactive
      exact absurd hactive r.grammar_ne_host
    | some r' =>
      rw [State.active_of_region hr, State.active_of_region hr'] at hactive
      by_cases hcloses : r.element.Closes c.rest
      · have hcloses' : r'.element.Closes c'.beginToken.rest := by
          rw [Cursor.rest_beginToken, ← hsame, ← Region.element_eq_of_grammar_eq hactive]
          exact hcloses
        exact hleg (token_of_closes hr hcloses) (token_of_closes hr' hcloses')
      · exact leg_of_region hm hm' hplace hshape.host hr hr' hactive hrest hcloses

/-- **And legs to the end of the line.** -/
theorem exists_legs (hhost : m.host = m'.host) (htypes : m.types = m'.types)
    (hconsumes : m.host.Consumes) (hm : m.EmbedsConsuming) (hm' : m'.EmbedsConsuming)
    (c c' : Cursor) (s : State η σ κ) (s' : State η σ' κ')
    (hplace : c.beginToken = c'.beginToken) (hshape : SameShape s s') :
    ∃ calls d t calls' d' t', Leg m m' c s calls d t c' s' calls' d' t' ∧ d.rest = [] := by
  -- each leg leaves less of the line
  induction hn : c.rest.length using Nat.strongRecOn generalizing c c' s s' with
  | ind n ih =>
    by_cases hrest : c.rest = []
    · exact ⟨[], c, s, [], c', s', ⟨.done c s, .done c' s', rfl, fun _ => rfl, hplace, hshape⟩,
        hrest⟩
    · obtain ⟨calls, d, t, calls', d', t', hleg, hlt⟩ :=
        exists_leg hhost htypes hconsumes hm hm' hplace hshape hrest
      obtain ⟨more, e, u, more', e', u', hlegs, he⟩ :=
        ih _ (hn ▸ hlt) d d' t t' hleg.place hleg.shape rfl
      exact ⟨_, e, u, _, e', u', hleg.append hlegs, he⟩

end Legs

/-! ## Lines and documents -/

section Documents

variable {s : State η σ κ} {s' : State η σ' κ'}

/-- **A line read from states of the same shape** is of the same grammars
and has the same spans of the host, and ends in such states again. -/
theorem sameShape_readLine (hhost : m.host = m'.host) (htypes : m.types = m'.types)
    (hconsumes : m.host.Consumes) (hm : m.EmbedsConsuming) (hm' : m'.EmbedsConsuming)
    (hshape : SameShape s s') (index : Nat) (line : List Char) :
    m.labels (m.tokenizer.callsFrom (.ofLine line) s) =
        m'.labels (m'.tokenizer.callsFrom (.ofLine line) s') ∧
      (m.labels (m.tokenizer.callsFrom (.ofLine line) s)).length = byteSize line ∧
      m.hostSpans index (m.tokenizer.callsFrom (.ofLine line) s) =
        m'.hostSpans index (m'.tokenizer.callsFrom (.ofLine line) s') ∧
      SameShape (m.tokenizer.readLine index line s).state
        (m'.tokenizer.readLine index line s').state := by
  obtain ⟨calls, d, t, calls', d', t', hleg, hd⟩ :=
    exists_legs hhost htypes hconsumes hm hm' (.ofLine line) (.ofLine line) s s' rfl hshape
  have hd' : d'.rest = [] := by
    rw [← (Cursor.beginToken_eq_iff.mp hleg.place).2.1, hd]
  -- legs to the end of the line have all of its calls
  have hcalls : m.tokenizer.callsFrom (.ofLine line) s = calls := by
    rw [hleg.run.callsFrom_eq, Tokenizer.callsFrom_of_atEnd _ hd, List.append_nil]
  have hcalls' : m'.tokenizer.callsFrom (.ofLine line) s' = calls' := by
    rw [hleg.run'.callsFrom_eq, Tokenizer.callsFrom_of_atEnd _ hd', List.append_nil]
  have hread := hleg.run.readFrom_eq index
  have hread' := hleg.run'.readFrom_eq index
  rw [Tokenizer.readFrom_of_atEnd _ hd] at hread
  rw [Tokenizer.readFrom_of_atEnd _ hd'] at hread'
  have htext : line = calls.flatMap m.tokenizer.textOf := by
    have h := hleg.run.rest
    rwa [hd, List.append_nil] at h
  refine ⟨?_, ?_, ?_, ?_⟩
  · rw [hcalls, hcalls', hleg.labels_eq]
  · rw [hcalls, length_labels, ← htext]
  · rw [hcalls, hcalls', hleg.hostSpans_eq]
  · rw [Tokenizer.readLine, Tokenizer.readLine, hread, hread']
    exact hleg.shape

/-- **And so is a document.** -/
theorem sameShape_readLines (hhost : m.host = m'.host) (htypes : m.types = m'.types)
    (hconsumes : m.host.Consumes) (hm : m.EmbedsConsuming) (hm' : m'.EmbedsConsuming)
    (lines : List (List Char)) :
    ∀ (index : Nat) (s : State η σ κ) (s' : State η σ' κ'), SameShape s s' →
      m.labelsOn index lines s = m'.labelsOn index lines s' ∧
        (m.labelsOn index lines s).map List.length = lines.map byteSize ∧
        m.hostSpansOn index lines s = m'.hostSpansOn index lines s' ∧
        SameShape (m.tokenizer.readLines index lines s).state
          (m'.tokenizer.readLines index lines s').state := by
  have ht := tokenizer_consumes hconsumes hm
  have ht' := tokenizer_consumes (hhost ▸ hconsumes) hm'
  induction lines with
  | nil =>
    intro index s s' hshape
    exact ⟨rfl, rfl, rfl, hshape⟩
  | cons line lines ih =>
    intro index s s' hshape
    obtain ⟨hlabels, hlength, hspans, hnext⟩ :=
      sameShape_readLine hhost htypes hconsumes hm hm' hshape index line
    obtain ⟨hlabels', hlength', hspans', hend⟩ := ih (index + 1) _ _ hnext
    have hfail := (ht.readLine_tiles index line s).1
    have hfail' := (ht'.readLine_tiles index line s').1
    simp only [labelsOn, hostSpansOn] at hlabels' hlength' hspans'
    simp only [labelsOn, hostSpansOn, Tokenizer.readLines, Tokenizer.callsByLine, hfail, hfail',
      List.map_cons, List.zipIdx_cons, List.flatMap_cons]
    refine ⟨?_, ?_, ?_, hend⟩
    · rw [hlabels, hlabels']
    · rw [hlength, hlength']
    · rw [hspans, hspans']

end Documents

/-- **Region boundaries do not depend on the embedded tokenizers.** Two
composites have the same markup host and the same script types, and any
embedded tokenizers that consume. On every document neither reading
fails, every byte of every line gets the same grammar, the host makes the
same spans, and its states after every number of lines are the same. -/
theorem regions_independent (setup : Markup.Setup)
    (m : Composite Markup.State σ κ φ) (m' : Composite Markup.State σ' κ' φ')
    (hhost : m.host = setup.tokenizer) (hhost' : m'.host = setup.tokenizer)
    (htypes : m.types = m'.types) (hm : m.EmbedsConsuming) (hm' : m'.EmbedsConsuming)
    (baseIndent : Nat) (lines : List (List Char)) :
    (m.tokenizer.readLines 0 lines (m.start baseIndent)).failure = none ∧
      (m'.tokenizer.readLines 0 lines (m'.start baseIndent)).failure = none ∧
      m.labelsOn 0 lines (m.start baseIndent) = m'.labelsOn 0 lines (m'.start baseIndent) ∧
      (m.labelsOn 0 lines (m.start baseIndent)).map List.length = lines.map byteSize ∧
      m.hostSpansOn 0 lines (m.start baseIndent) = m'.hostSpansOn 0 lines (m'.start baseIndent) ∧
      ∀ n, (m.tokenizer.readLines 0 (lines.take n) (m.start baseIndent)).state.host =
        (m'.tokenizer.readLines 0 (lines.take n) (m'.start baseIndent)).state.host := by
  have hsame : m.host = m'.host := hhost.trans hhost'.symm
  have hconsumes : m.host.Consumes := hhost ▸ setup.tokenizer_consumes
  have ht := tokenizer_consumes hconsumes hm
  have ht' := tokenizer_consumes (hsame ▸ hconsumes) hm'
  have hstart : SameShape (m.start baseIndent) (m'.start baseIndent) := by
    refine ⟨?_, rfl⟩
    simp only [start, hsame]
  have hread (read : List (List Char)) :=
    sameShape_readLines hsame htypes hconsumes hm hm' read 0 _ _ hstart
  obtain ⟨hlabels, hlength, hspans, -⟩ := hread lines
  refine ⟨(ht.readLines_line lines 0 _).1, (ht'.readLines_line lines 0 _).1, hlabels, hlength,
    hspans, ?_⟩
  intro n
  exact (hread (lines.take n)).2.2.2.host

/-- The html composite with plain text in the place of its scripts and
styles. -/
def plainBodies : Composite Markup.State Unit Unit Unit :=
  ⟨Markup.html {}, Plain.tokenizer, Plain.tokenizer, Plain.tokenizer, .standard⟩

/-- A string that runs past the closing tag and plain text to the end of
the line come to the same region, in different tokens. -/
theorem regions_independent_of_strings :
    (html {} .standard).EmbedsConsuming ∧ plainBodies.EmbedsConsuming ∧
      (html {} .standard).labelsOn 0 ["<script>".toList, "'a</script>b'".toList]
          ((html {} .standard).start 0) =
        plainBodies.labelsOn 0 ["<script>".toList, "'a</script>b'".toList]
          (plainBodies.start 0) := by
  have hm := html_embedsConsuming {} .standard
  have hm' : plainBodies.EmbedsConsuming :=
    ⟨Plain.tokenizer_consumes, Plain.tokenizer_consumes, Plain.tokenizer_consumes⟩
  obtain ⟨-, -, hlabels, -⟩ := regions_independent (.ofOptions .html {}) (html {} .standard)
    plainBodies rfl rfl rfl hm hm' 0 ["<script>".toList, "'a</script>b'".toList]
  exact ⟨hm, hm', hlabels⟩

end Composite

end Mixed

end MixedMarkup
