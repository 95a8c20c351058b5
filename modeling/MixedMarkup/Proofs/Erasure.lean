import MixedMarkup.Proofs.AlikeMarkup
import MixedMarkup.Proofs.RegionEntry
import MixedMarkup.Proofs.RegionIndependence
/-!
# Mixed documents — the host resumes where it stopped

The erasure of a document is what is left when the text of its regions is
deleted and every line that ends in a region is joined to the next one. To
the host a region is a gap between two tokens, of whatever length and over
however many lines: the host alone, reading the erasure, makes the tokens
that it makes in the composite (`host_resumes`).

The two readings go side by side. At every call of the host the text ahead
is the same in the document and in its erasure up to the end of the line
or to the `>` that enters the next region (`exists_sameStop`), so the two
cursors are abreast and alike states read alike; the `>` itself is read
alike whatever follows it (`Setup.token_endTag_alike`). A call of a region
moves the composite only.
-/

namespace MixedMarkup

open Cursor Text

/-- What a span is to a reader, wherever it stands. -/
def Span.content (s : Span) : String × Option Style := (s.text, s.style)

namespace Markup

variable {s s' : State} {c d : Cursor}

/-- A `>` in a tag is its end. -/
theorem readPiece_of_endTag (hzone : s.zone = .tag) (hpeek : c.peek? = some '>') :
    readPiece c s = ⟨some .tag, some .endTag, c.read 1, { s with zone := .text }⟩ := by
  have hnext : c.next? = some ('>', c.read 1) := by rw [next?, hpeek, Option.map_some]
  simp only [readPiece, hzone, inTag, hnext, beq_self_eq_true, if_true]

/-- A `>` is no blank. -/
theorem readBlanks?_of_endTag (hpeek : c.peek? = some '>') : c.readBlanks? = none := by
  have hblank : isBlank '>' = false := by decide
  simp only [readBlanks?, readWhile?, readIf?, hpeek, hblank, Bool.false_eq_true, if_false]

/-- **The end of a tag is read alike, whatever follows it.** -/
theorem Setup.token_endTag_alike (m : Setup) (hzone : s.zone = .tag) (hc : c.peek? = some '>')
    (hd : d.peek? = some '>') (htoken : d.token = c.token) (h : s.Alike s') :
    (m.token d s').style = (m.token c s).style ∧
      (m.token d s').cursor.token = (m.token c s).cursor.token ∧
      (m.token c s).state.Alike (m.token d s').state := by
  have hpiece := readPiece_of_endTag (s := enter c s) hzone hc
  have hpiece' := readPiece_of_endTag (s := enter d s') (h.zone.trans hzone) hd
  have htext : (d.read 1).token = (c.read 1).token := by
    rw [(took_read_one hc).token, (took_read_one hd).token, htoken]
  have halike : State.Alike { enter c s with zone := .text } { enter d s' with zone := .text } :=
    ⟨rfl, h.stage, h.tagName, h.names⟩
  obtain ⟨hstyle, hstate⟩ := m.flavour.step_alike (l := .endTag) halike htext
  simp only [token, readBlanks?_of_endTag hc, readBlanks?_of_endTag hd, hpiece, hpiece']
  exact ⟨by rw [hstyle], htext, hstate⟩

end Markup

namespace Mixed

namespace Composite

/-! ## Erasure -/

/-- Lines with a text put before the first of them. -/
def joinLine (kept : List Char) : List (List Char) → List (List Char)
  | [] => [kept]
  | next :: later => (kept ++ next) :: later

section Erasure

variable {η σ κ φ : Type} (m : Composite η σ κ φ)

/-- The text of the calls that the host answered. -/
def hostText (calls : List (Call (State η σ κ))) : List Char :=
  (calls.filter fun k => (m.tokenizer.stepOf k).state.last = .host).flatMap m.tokenizer.textOf

/-- The erasure of a line from the cursor on, with the lines that come
after it: where a region is open at the end of the line, the next one is
joined to it. -/
def eraseFrom (index : Nat) (c : Cursor) (s : State η σ κ) (later : List (List Char)) :
    List (List Char) :=
  let kept := m.hostText (m.tokenizer.callsFrom c s)
  if (m.tokenizer.readFrom index c s).state.active = .host then kept :: later
  else joinLine kept later

/-- **The erasure of lines**, the first of which has the given index. -/
def erasure (m : Composite η σ κ φ) (index : Nat) :
    List (List Char) → State η σ κ → List (List Char)
  | [], _ => []
  | line :: lines, s =>
    m.eraseFrom index (.ofLine line) s
      (m.erasure (index + 1) lines (m.tokenizer.readLine index line s).state)

variable {m} {calls more : List (Call (State η σ κ))} {c d : Cursor} {s s' : State η σ κ}
variable {index : Nat} {later : List (List Char)}

theorem exists_joinLine_eq_cons (kept : List Char) (lines : List (List Char)) :
    ∃ first rest, joinLine kept lines = first :: rest := by
  cases lines with
  | nil => exact ⟨_, _, rfl⟩
  | cons next later => exact ⟨_, _, rfl⟩

@[simp] theorem joinLine_joinLine (u v : List Char) (lines : List (List Char)) :
    joinLine u (joinLine v lines) = joinLine (u ++ v) lines := by
  cases lines with
  | nil => rfl
  | cons next later => simp [joinLine]

theorem hostText_append : m.hostText (calls ++ more) = m.hostText calls ++ m.hostText more := by
  simp [hostText]

/-- A call of the host keeps its text. -/
theorem hostText_singleton {k : Call (State η σ κ)}
    (h : (m.tokenizer.stepOf k).state.last = .host) : m.hostText [k] = m.tokenizer.textOf k := by
  simp [hostText, h]

/-- A call of a region loses it. -/
theorem hostText_singleton_of_ne {k : Call (State η σ κ)}
    (h : (m.tokenizer.stepOf k).state.last ≠ .host) : m.hostText [k] = [] := by
  simp [hostText, h]

theorem exists_eraseFrom_eq_cons (index : Nat) (c : Cursor) (s : State η σ κ)
    (later : List (List Char)) : ∃ first rest, m.eraseFrom index c s later = first :: rest := by
  unfold eraseFrom
  dsimp only
  split
  · exact ⟨_, _, rfl⟩
  · exact exists_joinLine_eq_cons _ _

/-- **What a run keeps comes before what is kept after it.** -/
theorem eraseFrom_of_run (h : m.tokenizer.Run c s calls d s') :
    m.eraseFrom index c s later = joinLine (m.hostText calls) (m.eraseFrom index d s' later) := by
  unfold eraseFrom
  rw [h.callsFrom_eq, h.readFrom_eq, hostText_append]
  dsimp only
  split
  · rfl
  · rw [joinLine_joinLine]

/-- At the end of a line outside regions the next line starts. -/
theorem eraseFrom_of_host (hrest : c.rest = []) (hactive : s.active = .host) :
    m.eraseFrom index c s later = [] :: later := by
  simp only [eraseFrom, Tokenizer.callsFrom_of_atEnd _ hrest,
    Tokenizer.readFrom_of_atEnd _ hrest, hactive, if_true]
  rfl

/-- At the end of a line in a region the next line goes on with it. -/
theorem eraseFrom_of_region (hrest : c.rest = []) (hactive : s.active ≠ .host) :
    m.eraseFrom index c s later = joinLine [] later := by
  simp only [eraseFrom, Tokenizer.callsFrom_of_atEnd _ hrest,
    Tokenizer.readFrom_of_atEnd _ hrest, hactive, if_false]
  rfl

end Erasure

/-! ## The text ahead of the host -/

section Ahead

variable {σ κ φ : Type} {m : Composite Markup.State σ κ φ} {setup : Markup.Setup}
variable {c d : Cursor} {s : State Markup.State σ κ} {index : Nat}
variable {later more : List (List Char)} {first : List Char}

/-- The host of a composite reads as it does alone. -/
theorem hostToken_eq (hhost : m.host = setup.tokenizer) (c : Cursor) (host : Markup.State) :
    (m.hostToken c host).style = (setup.token c host).style ∧
      (m.hostToken c host).cursor = (setup.token c host).cursor ∧
      (m.hostToken c host).state.host = (setup.token c host).state := by
  simp only [hostToken, hhost]
  exact ⟨rfl, rfl, rfl⟩

/-- A call of the host that enters a region reads the `>` of a tag. -/
theorem endTag_of_enters (hhost : m.host = setup.tokenizer) (hc : c.token = [])
    (hrest : c.rest ≠ []) {host : Markup.State}
    (h : (m.hostToken c host).state.region ≠ none) :
    host.zone = .tag ∧ c.peek? = some '>' ∧ (m.hostToken c host).cursor.token = ['>'] := by
  cases hopened : (setup.token c host).state.openedElement with
  | none =>
    refine absurd ?_ h
    simp only [hostToken, hhost]
    change (((setup.token c host).state.openedElement).bind _) = none
    rw [hopened, Option.bind_none]
  | some element =>
    obtain ⟨hend, -⟩ := (setup.openedElement_token_iff hc hrest).mp hopened
    obtain ⟨hzone, -, htext⟩ := setup.joins_token hc hrest hend
    refine ⟨hzone, Markup.peek?_of_endTag hc hrest hend, ?_⟩
    simp only [hostToken, hhost]
    exact htext

variable (hhost : m.host = setup.tokenizer) (hm : m.EmbedsConsuming)
include hhost hm

/-- The composite of a markup host consumes. -/
theorem tokenizer_consumes_of_markup : m.tokenizer.Consumes :=
  tokenizer_consumes (hhost ▸ setup.tokenizer_consumes) hm

/-- A call of the host is kept in the erasure, before what comes after
it. -/
theorem eraseFrom_hostCall (hrest : c.rest ≠ [])
    (hcall : m.token c.beginToken s = m.hostToken c.beginToken s.host) :
    m.eraseFrom index c s later = joinLine (m.token c.beginToken s).cursor.token
      (m.eraseFrom index (m.token c.beginToken s).cursor (m.token c.beginToken s).state later) := by
  have hrun := Tokenizer.Run.single
    ((tokenizer_consumes_of_markup hhost hm) c.beginToken s rfl hrest)
  have hlast : (m.tokenizer.stepOf ⟨c.beginToken, s⟩).state.last = .host := by
    change (m.token c.beginToken s).state.last = .host
    rw [hcall]
    rfl
  rw [eraseFrom_of_run hrun, hostText_singleton hlast]
  rfl

/-- A call of a region leaves no trace in it. -/
theorem eraseFrom_regionCall (hrest : c.rest ≠ [])
    (hlast : (m.token c.beginToken s).state.last ≠ .host) :
    m.eraseFrom index c s later =
      m.eraseFrom index (m.token c.beginToken s).cursor (m.token c.beginToken s).state later := by
  have hrun := Tokenizer.Run.single
    ((tokenizer_consumes_of_markup hhost hm) c.beginToken s rfl hrest)
  have hlast : (m.tokenizer.stepOf ⟨c.beginToken, s⟩).state.last ≠ .host := hlast
  rw [eraseFrom_of_run hrun, hostText_singleton_of_ne hlast]
  obtain ⟨first, rest, hcons⟩ := exists_eraseFrom_eq_cons (m := m) index
    (m.token c.beginToken s).cursor (m.token c.beginToken s).state later
  change joinLine [] (m.eraseFrom index (m.token c.beginToken s).cursor
    (m.token c.beginToken s).state later) = _
  rw [hcons]
  rfl

/-- **Outside regions a line and its erasure go on with the same text**, to
the ends of both or to the `>` that enters a region. -/
theorem exists_sameStop (index : Nat) (later : List (List Char)) (c : Cursor)
    (s : State Markup.State σ κ) (hs : s.region = none) :
    ∃ v x y more, c.rest = v ++ x ∧ m.eraseFrom index c s later = (v ++ y) :: more ∧
      SameStop x y := by
  -- each call leaves less of the line
  induction hn : c.rest.length using Nat.strongRecOn generalizing c s with
  | ind n ih =>
    by_cases hrest : c.rest = []
    · have hactive : s.active = .host := by rw [State.active, hs]; rfl
      exact ⟨[], [], [], later, by simpa using hrest, eraseFrom_of_host hrest hactive,
        .inl ⟨rfl, rfl⟩⟩
    · have hcall : m.token c.beginToken s = m.hostToken c.beginToken s.host := by rw [token, hs]
      obtain ⟨text, hne, htook⟩ :=
        tokenizer_consumes_of_markup hhost hm c.beginToken s rfl hrest
      have htoken : (m.token c.beginToken s).cursor.token = text := htook.token
      have hcut : c.rest = text ++ (m.token c.beginToken s).cursor.rest := htook.rest
      rw [eraseFrom_hostCall hhost hm hrest hcall, htoken]
      by_cases hregion : (m.token c.beginToken s).state.region = none
      · have hlt : (m.token c.beginToken s).cursor.rest.length < n :=
          hn ▸ Advances.rest_lt (c := c.beginToken) ⟨text, hne, htook⟩
        obtain ⟨v, x, y, more, hv, herase, hstop⟩ := ih _ hlt _ _ hregion rfl
        refine ⟨text ++ v, x, y, more, ?_, ?_, hstop⟩
        · rw [hcut, hv, List.append_assoc]
        · rw [herase, joinLine, List.append_assoc]
      · rw [hcall] at hregion htoken
        obtain ⟨-, -, hend⟩ := endTag_of_enters (c := c.beginToken) hhost rfl hrest hregion
        obtain ⟨first, rest, hcons⟩ := exists_eraseFrom_eq_cons (m := m) index
          (m.token c.beginToken s).cursor (m.token c.beginToken s).state later
        obtain rfl : text = ['>'] := htoken.symm.trans hend
        exact ⟨[], '>' :: (m.token c.beginToken s).cursor.rest, '>' :: first, rest, hcut,
          by rw [hcons]; rfl, .inr ⟨_, _, rfl, rfl⟩⟩

/-- **The host alone reads in the erasure what it reads in the document.**
A call of the host has its counterpart wherever the erasure is ahead and
the states are alike. -/
theorem token_erased (hrest : c.rest ≠ [])
    (hcall : m.token c.beginToken s = m.hostToken c.beginToken s.host)
    (herase : m.eraseFrom index c s later = d.rest :: more) {host : Markup.State}
    (halike : s.host.Alike host) :
    (setup.token d.beginToken host).style = (m.token c.beginToken s).style ∧
      (setup.token d.beginToken host).cursor.token = (m.token c.beginToken s).cursor.token ∧
      (m.token c.beginToken s).state.host.Alike (setup.token d.beginToken host).state ∧
      d.beginToken.Advances (setup.token d.beginToken host).cursor ∧
      m.eraseFrom index (m.token c.beginToken s).cursor (m.token c.beginToken s).state later =
        (setup.token d.beginToken host).cursor.rest :: more := by
  obtain ⟨text, hne, htook⟩ := tokenizer_consumes_of_markup hhost hm c.beginToken s rfl hrest
  have htoken : (m.token c.beginToken s).cursor.token = text := htook.token
  have hcut : c.rest = text ++ (m.token c.beginToken s).cursor.rest := htook.rest
  obtain ⟨hstyle, hcursor, hstate⟩ := hostToken_eq hhost c.beginToken s.host
  rw [← hcall] at hstyle hcursor hstate
  -- the erasure goes on with the text of the call
  obtain ⟨first, rest, hcons⟩ := exists_eraseFrom_eq_cons (m := m) index
    (m.token c.beginToken s).cursor (m.token c.beginToken s).state later
  rw [eraseFrom_hostCall hhost hm hrest hcall, htoken, hcons] at herase
  obtain ⟨hd, rfl⟩ := List.cons.inj herase
  have hdrest : d.rest ≠ [] := by simp [← hd, hne]
  have hread : (setup.token d.beginToken host).style = (m.token c.beginToken s).style ∧
      (setup.token d.beginToken host).cursor.token = (m.token c.beginToken s).cursor.token ∧
      (m.token c.beginToken s).state.host.Alike (setup.token d.beginToken host).state := by
    rw [hstyle, hcursor, hstate]
    by_cases hregion : (m.token c.beginToken s).state.region = none
    · obtain ⟨v, x, y, more', hv, herase', hstop⟩ :=
        exists_sameStop hhost hm index later (m.token c.beginToken s).cursor _ hregion
      obtain ⟨rfl, -⟩ := List.cons.inj (hcons.symm.trans herase')
      have habreast : c.beginToken.Abreast x y d.beginToken := by
        refine ⟨rfl, text ++ v, ?_, ?_⟩
        · rw [rest_beginToken, hcut, hv, List.append_assoc]
        · rw [rest_beginToken, ← hd, List.append_assoc]
      have hstay : (setup.token c.beginToken s.host).cursor.StaysBefore x := by
        rw [hcursor] at hv
        simp [StaysBefore, hv]
      obtain ⟨hsame, -⟩ := setup.token_abreast hstop habreast halike hstay
      exact ⟨hsame.style, hsame.cursor.token, hsame.state⟩
    · rw [hcall] at hregion
      obtain ⟨hzone, hpeek, hend⟩ := endTag_of_enters (c := c.beginToken) hhost rfl hrest hregion
      have hpeek' : d.beginToken.peek? = some '>' := by
        rw [← hcall, htoken] at hend
        rw [peek?, rest_beginToken, ← hd, hend]
        rfl
      exact setup.token_endTag_alike hzone hpeek hpeek' rfl halike
  obtain ⟨text', hne', htook'⟩ := setup.tokenizer_consumes d.beginToken host rfl hdrest
  refine ⟨hread.1, hread.2.1, hread.2.2, ⟨text', hne', htook'⟩, ?_⟩
  -- both tokens have the same text, so the same is left of the erasure
  have htext : text' = text := by
    have htoken' : (setup.token d.beginToken host).cursor.token = text' := htook'.token
    rw [← htoken', hread.2.1, htoken]
  have hleft : d.rest = text' ++ (setup.token d.beginToken host).cursor.rest := htook'.rest
  rw [← hd, htext] at hleft
  rw [hcons, List.append_cancel_left hleft]

end Ahead

/-! ## Lines and documents -/

section Documents

variable {σ κ φ : Type} {m : Composite Markup.State σ κ φ} {setup : Markup.Setup}
variable {lines : List (List Char)} {index : Nat} {c : Cursor} {s : State Markup.State σ κ}

/-- From the place on, with lines to come, the host makes the same tokens
as it makes alone of the erasure, wherever that is ahead of it. -/
def HostResumes (m : Composite Markup.State σ κ φ) (setup : Markup.Setup)
    (lines : List (List Char)) (index : Nat) (c : Cursor) (s : State Markup.State σ κ) : Prop :=
  ∀ (j : Nat) (d : Cursor) (host : Markup.State) (more : List (List Char)), s.host.Alike host →
    m.eraseFrom index c s (m.erasure (index + 1) lines (m.tokenizer.readFrom index c s).state) =
      d.rest :: more →
    (m.hostSpans index (m.tokenizer.callsFrom c s) ++
        m.hostSpansOn (index + 1) lines (m.tokenizer.readFrom index c s).state).map Span.content =
      ((setup.tokenizer.readFrom j d host).spans ++
        (setup.tokenizer.readLines (j + 1) more
          (setup.tokenizer.readFrom j d host).state).spans).map Span.content

variable (hhost : m.host = setup.tokenizer) (hm : m.EmbedsConsuming)
include hhost hm

/-- Over a call of the host both readings move, over a call of a region
the composite alone does. -/
theorem HostResumes.call (hrest : c.rest ≠ [])
    (h : HostResumes m setup lines index (m.token c.beginToken s).cursor
      (m.token c.beginToken s).state) : HostResumes m setup lines index c s := by
  intro j d host more halike herase
  have hrun := Tokenizer.Run.single
    ((tokenizer_consumes_of_markup hhost hm) c.beginToken s rfl hrest)
  have hstate : (m.tokenizer.readFrom index c s).state =
      (m.tokenizer.readFrom index (m.token c.beginToken s).cursor
        (m.token c.beginToken s).state).state := by
    rw [hrun.readFrom_eq index]
    rfl
  rw [hstate] at herase
  rw [hrun.callsFrom_eq, hostSpans_append, hstate, List.append_assoc, List.map_append]
  rcases token_cases (m := m) c.beginToken s with ⟨hcall, -⟩ | ⟨r, r', -, hregion⟩
  · obtain ⟨hstyle, htext, halike', hadv, herase'⟩ :=
      token_erased hhost hm hrest hcall herase halike
    have hlast : (m.token c.beginToken s).state.last = .host := by
      rw [hcall]
      rfl
    have hread := (Tokenizer.Run.single (t := setup.tokenizer.toTokenizer) hadv).readFrom_eq j
    rw [hread, hostSpans_singleton hlast]
    have hcontent : (m.tokenizer.spanOf index (m.token c.beginToken s)).content =
        (setup.tokenizer.callSpan j ⟨d.beginToken, host⟩).content :=
      Prod.ext (congrArg String.ofList htext.symm) hstyle.symm
    exact congrArg₂ List.cons hcontent (h j _ _ more halike' herase')
  · have hlast : (m.tokenizer.stepOf ⟨c.beginToken, s⟩).state.last = r.grammar :=
      congrArg State.last hregion
    have hhostState : (m.token c.beginToken s).state.host = s.host := by rw [hregion]
    have hspans : m.hostSpans index [⟨c.beginToken, s⟩] = [] := by
      refine hostSpans_eq_nil r.grammar_ne_host ?_ index
      intro k hk
      rw [List.mem_singleton.mp hk, hlast]
    rw [eraseFrom_regionCall hhost hm hrest (hlast ▸ r.grammar_ne_host)] at herase
    rw [hspans, List.map_nil, List.nil_append]
    exact h j d host more (hhostState ▸ halike) herase

/-- What holds at the end of the line holds on all of it. -/
theorem hostResumes_of_end
    (hend : ∀ c s, c.rest = [] → HostResumes m setup lines index c s) (c : Cursor)
    (s : State Markup.State σ κ) : HostResumes m setup lines index c s := by
  -- each call leaves less of the line
  induction hn : c.rest.length using Nat.strongRecOn generalizing c s with
  | ind n ih =>
    by_cases hrest : c.rest = []
    · exact hend c s hrest
    · have hlt := (tokenizer_consumes_of_markup hhost hm c.beginToken s rfl hrest).rest_lt
      exact .call hhost hm hrest (ih _ (hn ▸ hlt) _ _ rfl)

/-- The host's spans of a document are those of its first line and those of
the lines after it. -/
theorem hostSpansOn_cons (line : List Char) :
    m.hostSpansOn index (line :: lines) s =
      m.hostSpans index (m.tokenizer.callsFrom (.ofLine line) s) ++
        m.hostSpansOn (index + 1) lines (m.tokenizer.readLine index line s).state := by
  have hfail := ((tokenizer_consumes_of_markup hhost hm).readLine_tiles index line s).1
  simp only [hostSpansOn, Tokenizer.callsByLine, hfail, List.zipIdx_cons, List.flatMap_cons]

omit hhost hm in
/-- And so are the spans of the host alone. -/
theorem readLines_spans_cons (j : Nat) (line : List Char) (host : Markup.State) :
    (setup.tokenizer.readLines j (line :: lines) host).spans =
      (setup.tokenizer.readLine j line host).spans ++
        (setup.tokenizer.readLines (j + 1) lines
          (setup.tokenizer.readLine j line host).state).spans := by
  simp only [Tokenizer.readLines, (setup.tokenizer_consumes.readLine_tiles j line host).1]

/-- **On every line the host resumes where it stopped.** -/
theorem hostResumes (lines : List (List Char)) :
    ∀ (index : Nat) (c : Cursor) (s : State Markup.State σ κ),
      HostResumes m setup lines index c s := by
  induction lines with
  | nil =>
    intro index
    refine hostResumes_of_end hhost hm ?_
    intro c s hrest j d host more halike herase
    -- there is no next line, so nothing is left of the erasure
    have hnil : d.rest = [] ∧ more = [] := by
      by_cases hactive : s.active = .host
      · rw [eraseFrom_of_host hrest hactive] at herase
        obtain ⟨hd, hmore⟩ := List.cons.inj herase
        exact ⟨hd.symm, hmore.symm⟩
      · rw [eraseFrom_of_region hrest hactive] at herase
        obtain ⟨hd, hmore⟩ := List.cons.inj herase
        exact ⟨hd.symm, hmore.symm⟩
    rw [Tokenizer.callsFrom_of_atEnd _ hrest, Tokenizer.readFrom_of_atEnd _ hnil.1, hnil.2]
    rfl
  | cons line lines ih =>
    intro index
    refine hostResumes_of_end hhost hm ?_
    intro c s hrest j d host more halike herase
    have hstate : (m.tokenizer.readFrom index c s).state = s := by
      rw [Tokenizer.readFrom_of_atEnd _ hrest]
    obtain ⟨first, rest, hfirst⟩ := exists_eraseFrom_eq_cons (m := m) (index + 1) (.ofLine line) s
      (m.erasure (index + 1 + 1) lines (m.tokenizer.readLine (index + 1) line s).state)
    have hnext (j : Nat) (d : Cursor) (hd : d.rest = first) :=
      ih (index + 1) (.ofLine line) s j d host rest halike (hd ▸ hfirst)
    rw [hstate, erasure, hfirst] at herase
    rw [Tokenizer.callsFrom_of_atEnd _ hrest, hstate, hostSpansOn_cons hhost hm]
    by_cases hactive : s.active = .host
    · -- the next line is the next line of the erasure
      rw [eraseFrom_of_host hrest hactive] at herase
      obtain ⟨hd, rfl⟩ := List.cons.inj herase
      rw [Tokenizer.readFrom_of_atEnd _ hd.symm, readLines_spans_cons]
      exact hnext (j + 1) (.ofLine first) rfl
    · -- the next line is joined to this one
      rw [eraseFrom_of_region hrest hactive] at herase
      obtain ⟨hd, rfl⟩ := List.cons.inj herase
      exact hnext j d hd.symm

/-- The host of a composite makes the same tokens of a document as it makes
alone of its erasure. -/
theorem content_hostSpansOn (lines : List (List Char)) (index j : Nat)
    (s : State Markup.State σ κ) {host : Markup.State} (halike : s.host.Alike host) :
    (m.hostSpansOn index lines s).map Span.content =
      (setup.tokenizer.readLines j (m.erasure index lines s) host).spans.map Span.content := by
  cases lines with
  | nil => rfl
  | cons line lines =>
    obtain ⟨first, rest, hfirst⟩ := exists_eraseFrom_eq_cons (m := m) index (.ofLine line) s
      (m.erasure (index + 1) lines (m.tokenizer.readLine index line s).state)
    rw [hostSpansOn_cons hhost hm, erasure, hfirst, readLines_spans_cons]
    exact hostResumes hhost hm lines index (.ofLine line) s j (.ofLine first) host rest halike
      hfirst

end Documents

/-! ## Documents without regions -/

section Hosted

variable {σ κ φ : Type} {m : Composite Markup.State σ κ φ} {setup : Markup.Setup}
variable {c d : Cursor} {s s' : State Markup.State σ κ}
variable {calls : List (Call (State Markup.State σ κ))}

/-- **Calls that enter no region are calls of the host alone**, with the
same spans. -/
theorem run_of_hosted (hhost : m.host = setup.tokenizer) (h : m.tokenizer.Run c s calls d s') :
    s.region = none → (∀ k ∈ calls, (m.tokenizer.stepOf k).state.active = .host) →
      s'.region = none ∧ ∃ calls', setup.tokenizer.Run c s.host calls' d s'.host ∧
        ∀ index, calls'.map (setup.tokenizer.callSpan index) =
          calls.map (m.tokenizer.callSpan index) := by
  induction h with
  | done c s =>
    intro hs _
    exact ⟨hs, [], .done c s.host, fun _ => rfl⟩
  | @call c d s s' calls hadv _ ih =>
    intro hs hall
    have hcall : m.token c.beginToken s = m.hostToken c.beginToken s.host := by rw [token, hs]
    obtain ⟨hstyle, hcursor, hstate⟩ := hostToken_eq hhost c.beginToken s.host
    rw [← hcall] at hstyle hcursor hstate
    have hnext : (m.token c.beginToken s).state.region = none :=
      State.active_eq_host_iff.mp (hall _ (List.mem_cons_self ..))
    obtain ⟨hregion, calls', hrun, hspans⟩ :=
      ih hnext (fun k hk => hall k (List.mem_cons_of_mem _ hk))
    have hlast : (m.token c.beginToken s).state.last = .host := by
      rw [hcall]
      rfl
    have hadv : c.beginToken.Advances (m.token c.beginToken s).cursor := hadv
    have hrun : setup.tokenizer.Run (m.token c.beginToken s).cursor
        (m.token c.beginToken s).state.host calls' d s'.host := hrun
    rw [hcursor] at hadv
    rw [hcursor, hstate] at hrun
    refine ⟨hregion, ⟨c.beginToken, s.host⟩ :: calls', .call hadv hrun, ?_⟩
    intro index
    rw [List.map_cons, List.map_cons, hspans]
    have hspan : setup.tokenizer.spanOf index (setup.token c.beginToken s.host) =
        m.tokenizer.spanOf index (m.token c.beginToken s) := by
      simp only [Tokenizer.spanOf, hcursor, hstyle]
      simp only [tokenizer, grammarName, hlast, hhost]
      rfl
    exact congrArg (· :: calls.map (m.tokenizer.callSpan index)) hspan

/-- So a document in which no region is entered has the spans of the host
alone. -/
theorem readLines_of_hosted (hhost : m.host = setup.tokenizer) (hm : m.EmbedsConsuming)
    (lines : List (List Char)) :
    ∀ (index : Nat) (s : State Markup.State σ κ), s.region = none →
      (∀ k ∈ (m.tokenizer.callsByLine index lines s).flatten,
        (m.tokenizer.stepOf k).state.active = .host) →
      (m.tokenizer.readLines index lines s).spans =
        (setup.tokenizer.readLines index lines s.host).spans := by
  have ht := tokenizer_consumes_of_markup hhost hm
  induction lines with
  | nil =>
    intro index s _ _
    rfl
  | cons line lines ih =>
    intro index s hs hall
    have hfail := (ht.readLine_tiles index line s).1
    simp only [Tokenizer.callsByLine, hfail, List.flatten_cons, List.mem_append] at hall
    obtain ⟨calls, d, s', hrun, hd⟩ := ht.exists_run (.ofLine line) s
    have hcalls : m.tokenizer.callsFrom (.ofLine line) s = calls := by
      rw [hrun.callsFrom_eq, Tokenizer.callsFrom_of_atEnd _ hd, List.append_nil]
    obtain ⟨hregion, calls', hrun', hspans⟩ :=
      run_of_hosted hhost hrun hs (fun k hk => hall k (.inl (hcalls.symm ▸ hk)))
    -- both readings of the line end with its last call
    have hread := hrun.readFrom_eq index
    have hread' := hrun'.readFrom_eq index
    rw [Tokenizer.readFrom_of_atEnd _ hd] at hread hread'
    have hline : m.tokenizer.readLine index line s =
        ⟨calls.map (m.tokenizer.callSpan index) ++ [], s', none⟩ := hread
    have hline' : setup.tokenizer.readLine index line s.host =
        ⟨calls'.map (setup.tokenizer.callSpan index) ++ [], s'.host, none⟩ := hread'
    simp only [hline] at hall
    simp only [Tokenizer.readLines, hline, hline', hspans]
    rw [ih (index + 1) s' hregion (fun k hk => hall k (.inr hk))]

end Hosted

/-- **The host resumes where it stopped.** Whatever the regions of a
document, its host makes of it the tokens that it makes alone of the
erasure: the same texts with the same styles, in the same order, and
neither reading fails. In particular a document in which no region is
entered has exactly the spans of the host alone. -/
theorem host_resumes (o : Options) (types : TypePatterns) (baseIndent : Nat)
    (lines : List (List Char)) :
    ((html o types).tokenizer.readLines 0 lines ((html o types).start baseIndent)).failure = none ∧
      ((Markup.html o).readLines 0
        ((html o types).erasure 0 lines ((html o types).start baseIndent))
        ((Markup.html o).start baseIndent)).failure = none ∧
      ((html o types).hostSpansOn 0 lines ((html o types).start baseIndent)).map Span.content =
        ((Markup.html o).readLines 0
          ((html o types).erasure 0 lines ((html o types).start baseIndent))
          ((Markup.html o).start baseIndent)).spans.map Span.content ∧
      ((∀ k ∈ ((html o types).tokenizer.callsByLine 0 lines
          ((html o types).start baseIndent)).flatten,
          ((html o types).tokenizer.stepOf k).state.active = .host) →
        ((html o types).tokenizer.readLines 0 lines ((html o types).start baseIndent)).spans =
          ((Markup.html o).readLines 0 lines ((Markup.html o).start baseIndent)).spans) := by
  have hhost : (html o types).host = (Markup.Setup.ofOptions .html o).tokenizer := rfl
  have hm := html_embedsConsuming o types
  refine ⟨?_, ?_, ?_, ?_⟩
  · exact ((html_consumes o types).readLines_line lines 0 _).1
  · exact ((Markup.Setup.tokenizer_consumes _).readLines_line _ 0 _).1
  · exact content_hostSpansOn hhost hm lines 0 0 _ (.refl _)
  · intro hall
    exact readLines_of_hosted hhost hm lines 0 _ rfl hall

/-- A script over three lines is a gap to the host, which goes on with the
closing tag on the line of the opening one; and markup without scripts has
no gaps. -/
theorem host_resumes_after_script :
    (html {} .standard).erasure 0
        ["<p><script>a<b".toList, "'</i>'".toList, "c</script><i>".toList]
        ((html {} .standard).start 0) = ["<p><script></script><i>".toList] ∧
      ((html {} .standard).hostSpansOn 0
        ["<p><script>a<b".toList, "'</i>'".toList, "c</script><i>".toList]
        ((html {} .standard).start 0)).map Span.content =
      ((Markup.html {}).readLines 0 ["<p><script></script><i>".toList]
        ((Markup.html {}).start 0)).spans.map Span.content ∧
      ((html {} .standard).tokenizer.readLines 0 ["<p>".toList, "<i>".toList]
        ((html {} .standard).start 0)).spans =
      ((Markup.html {}).readLines 0 ["<p>".toList, "<i>".toList]
        ((Markup.html {}).start 0)).spans := by
  have herase : (html {} .standard).erasure 0
      ["<p><script>a<b".toList, "'</i>'".toList, "c</script><i>".toList]
      ((html {} .standard).start 0) = ["<p><script></script><i>".toList] := by
    decide +kernel
  obtain ⟨-, -, hcontent, -⟩ := host_resumes {} .standard 0
    ["<p><script>a<b".toList, "'</i>'".toList, "c</script><i>".toList]
  obtain ⟨-, -, -, hspans⟩ := host_resumes {} .standard 0 ["<p>".toList, "<i>".toList]
  rw [herase] at hcontent
  refine ⟨herase, hcontent, hspans ?_⟩
  decide +kernel

end Composite

end Mixed

end MixedMarkup
