import MixedMarkup.Proofs.AlikeReading
import MixedMarkup.Proofs.Coverage
/-!
# Mixed documents — the comparison of states

Whether two states are interchangeable is judged by the zone of the host,
the names of the open elements and the indentation of the line. The stage
and the name of the tag being read are left out, so states taken to be the
same may read the next line differently (`compare_leaves_out_stage`).
Where these agree too, the comparison is sound: all further lines have the
same spans (`compare_sound`), in a composite as in the host alone.
-/

namespace MixedMarkup

namespace Markup

/-- **States taken to be interchangeable are alike** as soon as they agree
on the tag being read. -/
theorem State.Alike.of_agrees {a b : State} (h : a.agrees b = true) (hstage : b.stage = a.stage)
    (hname : a.stage.Named → b.tagName = a.tagName) : a.Alike b := by
  simp only [State.agrees, Bool.and_eq_true, beq_iff_eq] at h
  obtain ⟨⟨-, hzone⟩, hnames⟩ := h
  exact ⟨hzone.symm, hstage, hname, hnames.symm⟩

end Markup

namespace Mixed

/-- Two regions are of one kind, and their tokenizers in alike states. -/
inductive Region.Alike :
    Region Script.State Stylesheet.State → Region Script.State Stylesheet.State → Prop
  | script {s s' : Script.State} : s.Alike s' → Alike (.script s) (.script s')
  | style {s s' : Stylesheet.State} : s.Alike s' → Alike (.style s) (.style s')
  | unknown : Alike .unknown .unknown

theorem Region.Alike.element {r r' : Region Script.State Stylesheet.State} (h : r.Alike r') :
    r'.element = r.element := by
  cases h <;> rfl

theorem Region.Alike.grammar {r r' : Region Script.State Stylesheet.State} (h : r.Alike r') :
    r'.grammar = r.grammar := by
  cases h <;> rfl

/-- Two states of the html composite differ at most in what indentation
depends on, and in the grammar of the token before them. -/
structure State.Alike (s s' : State Markup.State Script.State Stylesheet.State) : Prop where
  host : s.host.Alike s'.host
  region : Option.Rel Region.Alike s.region s'.region

/-- What a token is cut to does not hang on the tab stops. -/
theorem EmbeddingElement.trim_retab (e : EmbeddingElement) (n : Nat) (c : Cursor) :
    e.trim (c.retab n) = (e.trim c).retab n := by
  unfold trim
  simp only [Cursor.token_retab, Cursor.unread_retab, Cursor.atEnd_retab, Cursor.rest_retab]
  split
  · rfl
  · rfl
  · rw [apply_ite (Cursor.retab n), apply_ite (Cursor.retab n)]
    refine ite_congr rfl (fun _ => ite_congr rfl (fun _ => rfl) fun _ => ?_) fun _ => rfl
    split
    · rfl
    · rfl

namespace Composite

variable (o o' : Options) (types : TypePatterns)
variable {s s' : State Markup.State Script.State Stylesheet.State} {c : Cursor}

/-- An element opens regions of one kind, whatever the host's columns. -/
theorem regionOf?_alike (element : String) (line : List Char) (host host' : Markup.State) :
    Option.Rel Region.Alike ((html o types).regionOf? element line host)
      ((html o' types).regionOf? element line host') := by
  have htypes : (html o types).types = types := rfl
  have htypes' : (html o' types).types = types := rfl
  simp only [regionOf?, htypes, htypes']
  split
  · split
    · exact .some (.script (Script.initial_alike _ _))
    · exact .none
    · exact .some .unknown
  · split
    · exact .some (.style (Stylesheet.initial_alike _ _))
    · exact .none

/-- A token of the host is the same from alike states, and leads to the
same region. -/
theorem hostToken_alike (hc : c.token = []) (hrest : c.rest ≠ []) (tabSize : Nat)
    {host host' : Markup.State} (h : host.Alike host') :
    (html o types).tokenizer.SameToken (html o' types).tokenizer State.Alike tabSize
      ((html o types).hostToken c host) ((html o' types).hostToken (c.retab tabSize) host') := by
  have htoken := (Markup.Setup.ofOptions .html o).readsAlike c tabSize host host' hc hrest h
  have hopened := (Markup.Setup.ofOptions .html o).openedElement_token_alike hc hrest tabSize h
  refine ⟨htoken.style, htoken.cursor, rfl, htoken.state, ?_⟩
  change Option.Rel Region.Alike
    ((((Markup.Setup.ofOptions .html o).token c host).state.openedElement).bind _)
    ((((Markup.Setup.ofOptions .html o).token (c.retab tabSize) host').state.openedElement).bind _)
  rw [hopened]
  cases ((Markup.Setup.ofOptions .html o).token c host).state.openedElement with
  | none => exact .none
  | some element =>
    have hline : ((html o' types).host.token (c.retab tabSize) host').cursor.line =
        ((html o types).host.token c host).cursor.line :=
      (congrArg Cursor.line htoken.cursor).trans (Cursor.line_retab _ _)
    simp only [Option.bind_some, hline]
    exact regionOf?_alike o o' types element _ _ _

/-- So is a token of a region. -/
theorem regionToken_alike (hc : c.token = []) (hrest : c.rest ≠ []) (tabSize : Nat)
    {r r' : Region Script.State Stylesheet.State} (h : r.Alike r') :
    ((html o' types).regionToken (c.retab tabSize) r').style =
        ((html o types).regionToken c r).style ∧
      ((html o' types).regionToken (c.retab tabSize) r').cursor =
        ((html o types).regionToken c r).cursor.retab tabSize ∧
      ((html o types).regionToken c r).state.Alike
        ((html o' types).regionToken (c.retab tabSize) r').state := by
  cases h with
  | script h =>
    have htoken := Script.readsAlike o o' c tabSize _ _ hc hrest h
    exact ⟨htoken.style, htoken.cursor, .script htoken.state⟩
  | style h =>
    have htoken := Stylesheet.readsAlike o o' c tabSize _ _ hc hrest h
    exact ⟨htoken.style, htoken.cursor, .style htoken.state⟩
  | unknown => exact ⟨rfl, rfl, .unknown⟩

/-- **Alike states of the composite read alike**, whatever indents the
lines. -/
theorem html_readsAlike {o' : Options} :
    (html o types).tokenizer.ReadsAlike (html o' types).tokenizer State.Alike := by
  intro c tabSize s s' hc hrest h
  change (html o types).tokenizer.SameToken (html o' types).tokenizer State.Alike tabSize
    ((html o types).token c s) ((html o' types).token (c.retab tabSize) s')
  obtain ⟨host, region, last⟩ := s
  obtain ⟨host', region', last'⟩ := s'
  obtain ⟨hhost, hregion⟩ := h
  have hhostToken := hostToken_alike o o' types hc hrest tabSize hhost
  cases hregion with
  | none => exact hhostToken
  | @some r r' hr =>
    by_cases hcloses : r.element.Closes c.rest
    · rw [token_of_closes rfl hcloses, token_of_closes rfl (hr.element.symm ▸ hcloses)]
      exact hhostToken
    · obtain ⟨hstyle, hcursor, hstate⟩ := regionToken_alike o o' types hc hrest tabSize hr
      rw [token_of_not_closes rfl hcloses, token_of_not_closes rfl (hr.element.symm ▸ hcloses)]
      refine ⟨hstyle, ?_, ?_, hhost, .some hstate⟩
      · simp only [hr.element, hcursor, EmbeddingElement.trim_retab]
      · simp only [tokenizer, hr.grammar]
        rfl

/-- States that compare as the same are in the host, or both in a script
of unknown type, and their hosts are taken to be interchangeable. -/
theorem region_of_compare_eq_same (h : (html o types).compare s s' = .same) :
    Option.Rel Region.Alike s.region s'.region ∧ s.host.agrees s'.host = true := by
  obtain ⟨host, region, last⟩ := s
  obtain ⟨host', region', last'⟩ := s'
  have hsame : (if host.agrees host' = true then Comparison.same else .different) = .same →
      host.agrees host' = true := by
    intro hif
    by_contra hne
    simp [hne] at hif
  unfold compare at h
  split at h
  · rename_i hactive
    cases region with
    | none =>
      cases region' with
      | none => exact ⟨.none, hsame h⟩
      | some r' => exact absurd hactive.symm r'.grammar_ne_host
    | some r =>
      cases r with
      | script | style => simp at h
      | unknown =>
        cases region' with
        | none => simp [State.active, Region.grammar] at hactive
        | some r' =>
          cases r' with
          | script | style => simp [State.active, Region.grammar] at hactive
          | unknown => exact ⟨.some .unknown, hsame h⟩
  · simp at h

/-- **The comparison of states is sound up to the tag being read.** Two
states of the html composite that compare as the same, and agree on the
stage of the tag being read and on its name, read all further lines into
the same spans; and so do two such states of a markup tokenizer. -/
theorem compare_sound :
    (∀ a b : State Markup.State Script.State Stylesheet.State,
      (html o types).compare a b = .same → b.host.stage = a.host.stage →
      (a.host.stage.Named → b.host.tagName = a.host.tagName) →
      ∀ (index : Nat) (lines : List (List Char)),
        ((html o types).tokenizer.readLines index lines a).spans =
          ((html o types).tokenizer.readLines index lines b).spans) ∧
      ∀ (m : Markup.Setup) (a b : Markup.State), m.tokenizer.sameState a b = true →
        b.stage = a.stage → (a.stage.Named → b.tagName = a.tagName) →
        ∀ (index : Nat) (lines : List (List Char)),
          (m.tokenizer.readLines index lines a).spans =
            (m.tokenizer.readLines index lines b).spans := by
  refine ⟨?_, ?_⟩
  · intro a b hsame hstage hname index lines
    obtain ⟨hregion, hagrees⟩ := region_of_compare_eq_same o types hsame
    have halike : a.Alike b := ⟨.of_agrees hagrees hstage hname, hregion⟩
    exact ((html_readsAlike o types).readLines lines index a b halike).symm
  · intro m a b hsame hstage hname index lines
    have halike : a.Alike b := .of_agrees hsame hstage hname
    exact (m.readsAlike.readLines lines index a b halike).symm

/-- The state in which lines read from the start leave the html composite. -/
def leftBy (lines : List String) : State Markup.State Script.State Stylesheet.State :=
  ((html {} .standard).tokenizer.readLines 0 (lines.map String.toList)
    ((html {} .standard).start 0)).state

/-- A tag begun on the line of its parent and one begun on a line of its
own are read on alike. -/
theorem compare_sound_across_lines :
    leftBy ["<div><b id=1"] ≠ leftBy ["<div>", "<b"] ∧
      (html {} .standard).compare (leftBy ["<div><b id=1"]) (leftBy ["<div>", "<b"]) = .same ∧
      (∀ lines,
        ((html {} .standard).tokenizer.readLines 0 lines (leftBy ["<div><b id=1"])).spans =
          ((html {} .standard).tokenizer.readLines 0 lines (leftBy ["<div>", "<b"])).spans) ∧
      ∀ lines, ((Markup.html {}).readLines 0 lines (leftBy ["<div><b id=1"]).host).spans =
        ((Markup.html {}).readLines 0 lines (leftBy ["<div>", "<b"]).host).spans := by
  have hstage : (leftBy ["<div>", "<b"]).host.stage = (leftBy ["<div><b id=1"]).host.stage := by
    decide +kernel
  have hname : (leftBy ["<div>", "<b"]).host.tagName = (leftBy ["<div><b id=1"]).host.tagName := by
    decide +kernel
  have hsame : (html {} .standard).compare (leftBy ["<div><b id=1"]) (leftBy ["<div>", "<b"]) =
      .same := by
    decide +kernel
  have hagrees : (Markup.html {}).sameState (leftBy ["<div><b id=1"]).host
      (leftBy ["<div>", "<b"]).host = true := by
    decide +kernel
  refine ⟨by decide +kernel, hsame, ?_, ?_⟩
  · intro lines
    exact (compare_sound {} .standard).1 _ _ hsame hstage (fun _ => hname) 0 lines
  · intro lines
    exact (compare_sound {} .standard).2 (.ofOptions .html {}) _ _ hagrees hstage
      (fun _ => hname) 0 lines

/-- **The comparison takes states for the same that read on differently.**
After `<div` and after `<` the next word is an attribute or the name of
the tag, but both states are in a tag, with the same indentation and the
same open elements. The hosts alone are mistaken for each other too. -/
theorem compare_leaves_out_stage :
    (html {} .standard).compare (leftBy ["<div"]) (leftBy ["<"]) = .same ∧
      ((html {} .standard).tokenizer.readLines 1 ["x".toList] (leftBy ["<div"])).spans ≠
        ((html {} .standard).tokenizer.readLines 1 ["x".toList] (leftBy ["<"])).spans ∧
      (Markup.html {}).sameState (leftBy ["<div"]).host (leftBy ["<"]).host = true ∧
      ((Markup.html {}).readLines 1 ["x".toList] (leftBy ["<div"]).host).spans ≠
        ((Markup.html {}).readLines 1 ["x".toList] (leftBy ["<"]).host).spans := by
  refine ⟨?_, ?_, ?_, ?_⟩ <;> decide +kernel

end Composite

end Mixed

end MixedMarkup
