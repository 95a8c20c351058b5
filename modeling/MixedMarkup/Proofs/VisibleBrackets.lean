import MixedMarkup.Proofs.TrimmedTokens
import MixedMarkup.Script.Lexeme
import Mathlib.Data.List.Nodup
/-!
# Brackets — those that a text shows

The brackets of a text are those outside strings, comments and template
literals. Where these begin and end is told here from the characters alone
(`visible`), without lexemes: of the competing marks the first one counts,
a backslash takes the character after it away, and only comments and
templates go on over the end of a line. A tokenizer agrees with that text by
text (`Reveals`): what it reads shows brackets, and what it leaves shows the
others.

A text whose brackets are well nested leaves a stack of open brackets as it
was (`WellNested.restores`), whatever it holds before and however the stack
treats a bracket that does not fit, since in such a text all of them do.
-/

namespace MixedMarkup

/-- What a language takes for brackets, and what hides them. -/
structure BracketRules where
  /-- The opening brackets, each with the one that closes it. -/
  pairs : List (Char × Char)
  /-- The marks around strings and templates. -/
  marks : List Char
  /-- Whether two slashes begin a comment. -/
  lineComments : Bool
  /-- No character has two meanings. -/
  distinct : ('/' :: '\\' :: (marks ++ (pairs.map Prod.fst ++ pairs.map Prod.snd))).Nodup

/-- Where a reader of brackets stands. -/
inductive Inside where
  | code
  | comment
  /-- Behind the mark that began a string or a template. -/
  | quoted (mark : Char)
  deriving DecidableEq

/-- What goes on over the end of a line: comments and templates. -/
def Inside.nextLine : Inside → Inside
  | code => code
  | comment => comment
  | quoted mark => if mark = Script.templateMark then quoted mark else code

namespace BracketRules

variable (r : BracketRules)

/-- All brackets. -/
def brackets : List Char := r.pairs.map Prod.fst ++ r.pairs.map Prod.snd

/-- **The brackets of a line** outside strings, comments and templates, and
where the next line begins. -/
def visible : Inside → List Char → List Char × Inside
  | i, [] => ([], i.nextLine)
  | .code, '/' :: '*' :: text => visible .comment text
  | .code, c :: text =>
    if r.lineComments ∧ c = '/' ∧ text.head? = some '/' then ([], .code)
    else if c ∈ r.marks then visible (.quoted c) text
    else
      let (shown, i) := visible .code text
      (if c ∈ r.brackets then c :: shown else shown, i)
  | .comment, '*' :: '/' :: text => visible .code text
  | .comment, _ :: text => visible .comment text
  | .quoted mark, '\\' :: _ :: text => visible (.quoted mark) text
  | .quoted mark, c :: text => visible (if c = mark then .code else .quoted mark) text

/-- The brackets of lines, and where the line after them begins. -/
def visibleOn : Inside → List (List Char) → List Char × Inside
  | i, [] => ([], i)
  | i, line :: lines =>
    let (shown, i) := r.visible i line
    let (more, i) := visibleOn i lines
    (shown ++ more, i)

/-- Brackets that are well nested. -/
inductive WellNested : List Char → Prop
  | nil : WellNested []
  | nest {opener closer : Char} {inner after : List Char} : (opener, closer) ∈ r.pairs →
      WellNested inner → WellNested after → WellNested (opener :: (inner ++ closer :: after))

/-- Lines whose brackets are well nested, the last of which ends outside
strings, comments and templates. -/
structure Balanced (lines : List (List Char)) : Prop where
  feedless : ∀ line ∈ lines, '\n' ∉ line
  nested : r.WellNested (r.visibleOn .code lines).1
  ends : (r.visibleOn .code lines).2 = .code

/-! ## What a text shows by parts -/

/-- The text shows the brackets, and then what the rest shows. -/
def Reveals (i : Inside) (text shown : List Char) (j : Inside) (rest : List Char) : Prop :=
  r.visible i text = (shown ++ (r.visible j rest).1, (r.visible j rest).2)

/-- The characters that are brackets or may hide them. -/
def specials : List Char := '/' :: (r.marks ++ r.brackets)

variable {r} {i j k : Inside} {text rest left shown more : List Char} {c mark : Char}

theorem Reveals.refl : r.Reveals i text [] i text := rfl

theorem Reveals.trans (h : r.Reveals i text shown j rest) (h' : r.Reveals j rest more k left) :
    r.Reveals i text (shown ++ more) k left := by
  rw [Reveals, h, h']
  simp only [List.append_assoc]

theorem slash_distinct : '/' ∉ r.marks ∧ '/' ∉ r.brackets := by
  have h := r.distinct
  simp only [List.nodup_cons, List.mem_cons, List.mem_append, not_or] at h
  exact ⟨h.1.2.1, by simp [brackets, h.1.2.2]⟩

theorem mark_distinct (hmark : mark ∈ r.marks) : mark ≠ '/' ∧ mark ∉ r.brackets := by
  have hnodup : (r.marks ++ r.brackets).Nodup :=
    (List.nodup_cons.mp (List.nodup_cons.mp r.distinct).2).2
  refine ⟨?_, fun hbracket => (List.nodup_append.mp hnodup).2.2 _ hmark _ hbracket rfl⟩
  rintro rfl
  exact slash_distinct.1 hmark

/-- What is behind a slash decides whether it begins a comment. -/
theorem visible_code (hblock : ¬ (c = '/' ∧ text.head? = some '*')) :
    r.visible .code (c :: text) =
      if r.lineComments ∧ c = '/' ∧ text.head? = some '/' then ([], .code)
      else if c ∈ r.marks then r.visible (.quoted c) text
      else (if c ∈ r.brackets then c :: (r.visible .code text).1 else (r.visible .code text).1,
        (r.visible .code text).2) := by
  rw [visible]
  rintro text' rfl rfl
  exact hblock ⟨rfl, rfl⟩

/-- A character that is not special shows nothing and hides nothing. -/
theorem reveals_plain (hc : c ∉ r.specials) : r.Reveals .code (c :: text) [] .code text := by
  simp only [specials, List.mem_cons, List.mem_append, not_or] at hc
  rw [Reveals, visible_code (by simp [hc])]
  simp [hc]

/-- The first characters of the text are not special. -/
def Skips (r : BracketRules) (text : List Char) (n : Nat) : Prop :=
  ∀ x ∈ text.take n, x ∉ r.specials

/-- No special character is among those of a class that has none of them. -/
theorem not_special {p : Char → Bool} (hp : ∀ x ∈ r.specials, p x = false) (hc : p c = true) :
    c ∉ r.specials := fun hspecial => by simp [hp c hspecial] at hc

theorem Skips.run {p : Char → Bool} (hp : ∀ x ∈ r.specials, p x = false) (text : List Char) :
    r.Skips text (runLength p text) := by
  intro x hx
  rw [runLength, ← List.prefix_iff_eq_take.mp (List.takeWhile_prefix p)] at hx
  exact not_special hp (List.mem_takeWhile_imp hx)

theorem Skips.cons {n : Nat} (hc : c ∉ r.specials) (h : r.Skips text n) :
    r.Skips (c :: text) (1 + n) := by
  rw [Skips, Nat.add_comm, List.take_succ_cons, List.forall_mem_cons]
  exact ⟨hc, h⟩

theorem Skips.add {m n : Nat} (h : r.Skips text m) (h' : r.Skips (text.drop m) n) :
    r.Skips text (m + n) := by
  rw [Skips, List.take_add]
  intro x hx
  exact (List.mem_append.mp hx).elim (h x) (h' x)

theorem Skips.one (hc : c ∉ r.specials) (text : List Char) : r.Skips (c :: text) 1 := by
  simpa [Skips] using hc

/-- And such characters show nothing either. -/
theorem Skips.reveals {n : Nat} (h : r.Skips text n) :
    r.Reveals .code text [] .code (text.drop n) := by
  induction n generalizing text with
  | zero => exact .refl
  | succ n ih =>
    cases text with
    | nil => exact .refl
    | cons c text =>
      rw [Skips, List.take_succ_cons, List.forall_mem_cons] at h
      exact (reveals_plain h.1).trans (ih h.2)

/-- A slash is plain where no comment begins with it. -/
theorem reveals_slash (hblock : text.head? ≠ some '*')
    (hline : r.lineComments = true → text.head? ≠ some '/') :
    r.Reveals .code ('/' :: text) [] .code text := by
  rw [Reveals, visible_code (by simp [hblock])]
  have hline' : ¬ (r.lineComments = true ∧ '/' = '/' ∧ text.head? = some '/') :=
    fun h => hline h.1 h.2.2
  rw [if_neg hline', if_neg slash_distinct.1, if_neg slash_distinct.2]
  rfl

theorem reveals_lineComment (h : r.lineComments = true) :
    r.Reveals .code ('/' :: '/' :: text) [] .code [] := by
  rw [Reveals, visible_code (by simp), if_pos ⟨h, rfl, rfl⟩]
  rfl

theorem reveals_blockComment : r.Reveals .code ('/' :: '*' :: text) [] .comment text := by
  rw [Reveals, visible]
  rfl

theorem reveals_mark (hmark : mark ∈ r.marks) :
    r.Reveals .code (mark :: text) [] (.quoted mark) text := by
  have hslash := (mark_distinct hmark).1
  rw [Reveals, visible_code (by simp [hslash])]
  simp [hslash, hmark]

theorem reveals_bracket (hc : c ∈ r.brackets) : r.Reveals .code (c :: text) [c] .code text := by
  have hslash : c ≠ '/' := by
    rintro rfl
    exact slash_distinct.2 hc
  have hmark : c ∉ r.marks := fun hmark => (mark_distinct hmark).2 hc
  rw [Reveals, visible_code (by simp [hslash])]
  simp [hslash, hmark, hc]

/-- **A comment** hides everything up to its end. -/
theorem reveals_comment (text : List Char) :
    r.Reveals .comment text [] (if (Scan.through "*/".toList text).closed then .code else .comment)
      (text.drop (Scan.through "*/".toList text).width) := by
  induction text with
  | nil => rfl
  | cons c text ih =>
    by_cases hmark : "*/".toList <+: c :: text
    · obtain ⟨rest, hrest⟩ := hmark
      obtain ⟨rfl, rfl⟩ := List.cons.inj hrest
      rfl
    · have hscan : Scan.through "*/".toList (c :: text) =
          (Scan.through "*/".toList text).after := by
        rw [Scan.through, if_neg (by rwa [List.isPrefixOf_iff_prefix])]
      have hfirst : r.visible .comment (c :: text) = r.visible .comment text := by
        rw [visible]
        rintro rest rfl rfl
        exact hmark ⟨rest, rfl⟩
      rw [hscan]
      exact hfirst.trans ih

/-- A character behind which a quoted text goes on. -/
theorem visible_quoted (hc : c ≠ '\\') :
    r.visible (.quoted mark) (c :: text) =
      r.visible (if c = mark then .code else .quoted mark) text := by
  rw [visible]
  rintro d text' rfl
  exact absurd rfl hc

/-- **A string or a template** hides everything up to the mark that ends it. -/
theorem reveals_quoted (hmark : mark ≠ '\\') :
    ∀ text, r.Reveals (.quoted mark) text []
      (if (Scan.quoted mark false text).closed then .code else .quoted mark)
      (text.drop (Scan.quoted mark false text).width)
  | [] => rfl
  | c :: text => by
    by_cases hbackslash : c = '\\'
    · -- the character after it is taken away, if the line has one
      subst hbackslash
      cases text with
      | nil =>
        have hscan : Scan.quoted mark false ['\\'] = ⟨1, false⟩ := by
          simp [Scan.quoted, hmark.symm, Scan.after]
        rw [hscan, Reveals, visible, if_neg hmark.symm]
        · rfl
        · simp
      | cons d text =>
        have hscan : Scan.quoted mark false ('\\' :: d :: text) =
            (Scan.quoted mark false text).after.after := by
          simp [Scan.quoted, hmark.symm]
        rw [hscan, Reveals, visible]
        exact reveals_quoted hmark text
    rw [Reveals, visible_quoted hbackslash]
    by_cases hc : c = mark
    · subst hc
      have hscan : Scan.quoted c false (c :: text) = ⟨1, true⟩ := by simp [Scan.quoted]
      simp [hscan]
    · have hscan : Scan.quoted mark false (c :: text) = (Scan.quoted mark false text).after := by
        simp [Scan.quoted, hc, beq_false_of_ne hbackslash]
      rw [hscan, if_neg hc]
      exact reveals_quoted hmark text

/-- A string ends on its line. -/
theorem reveals_string (hmark : mark = '\x22' ∨ mark = '\x27') (text : List Char) :
    r.Reveals (.quoted mark) text [] .code
      (text.drop (Scan.quoted mark false text).width) := by
  have htemplate : mark ≠ Script.templateMark := by rcases hmark with rfl | rfl <;> decide
  have hbackslash : mark ≠ '\\' := by rcases hmark with rfl | rfl <;> decide
  have hquoted := r.reveals_quoted hbackslash text
  cases hclosed : (Scan.quoted mark false text).closed with
  | true => simpa [hclosed] using hquoted
  | false =>
    rw [hclosed, (Scan.quoted_skip hclosed).1, List.drop_length] at hquoted
    rw [(Scan.quoted_skip hclosed).1, List.drop_length]
    refine hquoted.trans ?_
    simp [Reveals, visible, Inside.nextLine, htemplate]

end BracketRules

/-! ## Stacks of open brackets -/

/-- A stack of open brackets: which bracket closes an entry, and what a
closing bracket does. One that closes the innermost entry removes it. -/
structure BracketStack (β : Type) where
  closer : β → Char
  close : Char → List β → List β
  close_closer : ∀ top outer, close (closer top) (top :: outer) = outer

namespace BracketRules

variable {r : BracketRules} {β : Type} {k : BracketStack β}
variable {brackets more : List Char} {b : Char} {stack stack' stack'' : List β}

/-- What a bracket does to a stack: an opening one puts an entry on it. -/
def Turns (r : BracketRules) (k : BracketStack β) (b : Char) (stack stack' : List β) : Prop :=
  if b ∈ r.pairs.map Prod.fst then
    ∃ top, (b, k.closer top) ∈ r.pairs ∧ stack' = top :: stack
  else stack' = k.close b stack

/-- And what brackets do one after the other. -/
inductive TurnsOn (r : BracketRules) (k : BracketStack β) : List Char → List β → List β → Prop
  | nil (stack : List β) : TurnsOn r k [] stack stack
  | cons {b : Char} {brackets : List Char} {stack stack' stack'' : List β} :
      r.Turns k b stack stack' → TurnsOn r k brackets stack' stack'' →
      TurnsOn r k (b :: brackets) stack stack''

theorem TurnsOn.single (h : r.Turns k b stack stack') : r.TurnsOn k [b] stack stack' :=
  .cons h (.nil _)

theorem TurnsOn.append (h : r.TurnsOn k brackets stack stack')
    (h' : r.TurnsOn k more stack' stack'') : r.TurnsOn k (brackets ++ more) stack stack'' := by
  induction h with
  | nil => exact h'
  | cons hturns _ ih => exact .cons hturns (ih h')

theorem TurnsOn.of_append (h : r.TurnsOn k (brackets ++ more) stack stack'') :
    ∃ stack', r.TurnsOn k brackets stack stack' ∧ r.TurnsOn k more stack' stack'' := by
  induction brackets generalizing stack with
  | nil => exact ⟨stack, .nil stack, h⟩
  | cons b brackets ih =>
    cases h with
    | cons hturns htail =>
      obtain ⟨stack', hfirst, hmore⟩ := ih htail
      exact ⟨stack', .cons hturns hfirst, hmore⟩

/-- Each opening bracket has one closing bracket, and no bracket is both. -/
theorem pair_distinct {opener closer : Char} (h : (opener, closer) ∈ r.pairs) :
    (∀ other, (opener, other) ∈ r.pairs → other = closer) ∧ closer ∉ r.pairs.map Prod.fst := by
  have hnodup : (r.pairs.map Prod.fst ++ r.pairs.map Prod.snd).Nodup :=
    (List.nodup_append.mp (List.nodup_cons.mp (List.nodup_cons.mp r.distinct).2).2).2.1
  obtain ⟨hopeners, -, hapart⟩ := List.nodup_append.mp hnodup
  constructor
  · intro other hother
    exact congrArg Prod.snd (List.inj_on_of_nodup_map hopeners hother h rfl)
  · intro hopener
    exact hapart _ hopener _ (List.mem_map_of_mem (f := Prod.snd) h) rfl

/-- **Well nested brackets leave a stack as it was.** Each closing one meets
the entry of its opening one. -/
theorem WellNested.restores (h : r.WellNested brackets)
    (hturns : r.TurnsOn k brackets stack stack') : stack' = stack := by
  induction h generalizing stack stack' with
  | nil =>
    cases hturns
    rfl
  | @nest opener closer inner after hpair _ _ ihInner ihAfter =>
    cases hturns with
    | cons hopens hrest =>
      obtain ⟨stack₁, hinner, hrest⟩ := hrest.of_append
      cases hrest with
      | cons hcloses hafter =>
        rw [Turns, if_pos (List.mem_map_of_mem (f := Prod.fst) hpair)] at hopens
        obtain ⟨top, htop, rfl⟩ := hopens
        obtain rfl := (pair_distinct hpair).1 _ htop
        obtain rfl := ihInner hinner
        rw [Turns, if_neg (pair_distinct hpair).2, k.close_closer] at hcloses
        obtain rfl := hcloses
        exact ihAfter hafter

end BracketRules

end MixedMarkup
