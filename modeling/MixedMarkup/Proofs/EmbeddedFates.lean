import MixedMarkup.Proofs.TokenFates
/-!
# Mixed documents — the fates of script and stylesheet tokens

Every token of the script tokenizer, on a line without line feeds, and
every token of the stylesheet tokenizer has one of the fates of
`EmbeddingElement.Fate`. Lexemes are recognised on the text ahead, and all
but a few of them end where a tag starts (`LexemeCut`): line comments run
over it, and so may what is scanned for its end; and a run of operators
takes the `<` of the tag along.
-/

namespace MixedMarkup

open Text Mixed

/-! ## Scripts -/

namespace Script

/-- A lexeme that is the whole of its token. -/
def Lexeme.Plain : Lexeme → Prop
  | lineComment | blockComment | quote _ | template => False
  | number | word | opening _ | closing _ | dot | punctuation | operator => True

/-- How the lexeme at the start of `body` is recognised, on the line and on
the line cut behind `body`. -/
inductive LexemeCut (body after : List Char) : Prop
  | nothing : lexeme? body = none → lexeme? (body ++ after) = none → LexemeCut body after
  | plain {l : Lexeme} {n : Nat} : l.Plain → lexeme? body = some (l, n) →
      lexeme? (body ++ after) = some (l, n) → 0 < n → n ≤ body.length →
      n = 1 ∨ '<' ∉ body.take n → LexemeCut body after
  | lineComment : lexeme? body = some (.lineComment, body.length) →
      lexeme? (body ++ after) = some (.lineComment, (body ++ after).length) → LexemeCut body after
  | blockComment {left : List Char} : body = ['/', '*'] ++ left →
      lexeme? body = some (.blockComment, 2) → lexeme? (body ++ after) = some (.blockComment, 2) →
      LexemeCut body after
  | quote {mark : Char} {left : List Char} : mark = '\x22' ∨ mark = '\x27' →
      body = [mark] ++ left → lexeme? body = some (.quote mark, 1) →
      lexeme? (body ++ after) = some (.quote mark, 1) → LexemeCut body after
  | template {left : List Char} : body = [templateMark] ++ left →
      lexeme? body = some (.template, 1) → lexeme? (body ++ after) = some (.template, 1) →
      LexemeCut body after
  | run {first : Char} {rest : List Char} : body = first :: rest →
      isOperatorChar first = true → LexemeCut body after

/-- The width of a fraction, if the text starts with one. -/
def fractionLength : List Char → Nat
  | '.' :: fraction => 1 + runLength isNumberChar fraction
  | _ => 0

theorem stopsAtTag_fractionLength : StopsAtTag fractionLength := by
  intro text after hafter
  cases text with
  | nil =>
    rcases hafter with rfl | ⟨more, rfl⟩
    · exact ⟨rfl, Nat.le_refl 0, by simp⟩
    · exact ⟨rfl, Nat.le_refl 0, by simp⟩
  | cons first text =>
    by_cases hdot : first = '.'
    · subst hdot
      exact (StopsAtTag.runLength (p := isNumberChar) (by decide)).cons (by decide) text hafter
    · have hnone (text : List Char) : fractionLength (first :: text) = 0 := by
        unfold fractionLength
        split
        · rename_i heq
          exact absurd (List.cons.inj heq).1 hdot
        · rfl
      exact ⟨by rw [List.cons_append, hnone, hnone], by rw [hnone]; exact Nat.zero_le _,
        by rw [hnone]; simp⟩

theorem stopsAtTag_numberTail : StopsAtTag numberTail := by
  have hsplit : numberTail = fun text =>
      runLength isNumberChar text + fractionLength (text.drop (runLength isNumberChar text)) := by
    funext text
    simp only [numberTail]
    fun_cases fractionLength (text.drop (runLength isNumberChar text)) with
    | case1 fraction => exact Nat.add_assoc ..
    | case2 left hnone => grind
  rw [hsplit]
  exact .andThen (.runLength (by decide)) stopsAtTag_fractionLength

/-- A lexeme that a first character starts, with a width that ends where a
tag starts. -/
theorem LexemeCut.of_stopsAtTag {l : Lexeme} {f : List Char → Nat} (hf : StopsAtTag f)
    (hl : l.Plain) {first : Char} (hfirst : first ≠ '<')
    (h : ∀ text, lexeme? (first :: text) = some (l, 1 + f text)) {rest after : List Char}
    (hafter : TagOrEnd after) : LexemeCut (first :: rest) after := by
  obtain ⟨hsame, hle, hmem⟩ := hf.cons hfirst rest hafter
  exact .plain hl (h rest) (by rw [List.cons_append, h, hsame]) (by omega) hle (.inr hmem)

/-- And one that is this character alone. -/
theorem LexemeCut.of_char {l : Lexeme} (hl : l.Plain) {first : Char} {rest after : List Char}
    (h : lexeme? (first :: rest) = some (l, 1))
    (hmore : lexeme? (first :: (rest ++ after)) = some (l, 1)) : LexemeCut (first :: rest) after :=
  .plain hl h hmore Nat.one_pos (by simp) (.inl rfl)

theorem lexemeCut_slash {rest after : List Char} (hafter : TagOrEnd after)
    (hlf : '\n' ∉ rest ++ after) : LexemeCut ('/' :: rest) after := by
  have hslash (text : List Char) : lexeme? ('/' :: text) = some (slashLexeme text) := rfl
  cases rest with
  | nil =>
    refine .of_char (l := .operator) trivial (hslash []) ?_
    rw [hslash]
    rcases hafter with rfl | ⟨more, rfl⟩
    · rfl
    · rfl
  | cons second rest =>
    by_cases hcomment : second = '/'
    · subst hcomment
      simp only [List.cons_append, List.mem_cons, not_or] at hlf
      refine .lineComment ?_ ?_
      · rw [hslash, slashLexeme,
          runLength_of_feedless fun h => hlf.2 (List.mem_append_left _ h), Nat.add_comm]
        rfl
      · rw [List.cons_append, hslash, List.cons_append, slashLexeme, runLength_of_feedless hlf.2,
          Nat.add_comm]
        rfl
    by_cases hblock : second = '*'
    · subst hblock
      exact .blockComment rfl rfl rfl
    · have hoperator (text : List Char) : slashLexeme (second :: text) = (.operator, 1) := by
        unfold slashLexeme
        split
        · rename_i heq
          exact absurd (List.cons.inj heq).1 hcomment
        · rename_i heq
          exact absurd (List.cons.inj heq).1 hblock
        · rfl
      exact .of_char (l := .operator) trivial (by rw [hslash, hoperator])
        (by rw [hslash, List.cons_append, hoperator])

theorem lexemeCut_dot {rest after : List Char} (hafter : TagOrEnd after) :
    LexemeCut ('.' :: rest) after := by
  have hdot (text : List Char) : lexeme? ('.' :: text) = some (dotLexeme text) := rfl
  cases rest with
  | nil =>
    refine .of_char (l := .dot) trivial (hdot []) ?_
    rw [hdot]
    rcases hafter with rfl | ⟨more, rfl⟩
    · rfl
    · rfl
  | cons second rest =>
    cases hdigit : second.isDigit with
    | false =>
      have hsole (text : List Char) : dotLexeme (second :: text) = (.dot, 1) := by
        simp [dotLexeme, hdigit]
      exact .of_char (l := .dot) trivial (by rw [hdot, hsole])
        (by rw [hdot, List.cons_append, hsole])
    | true =>
      have hnumber (text : List Char) :
          dotLexeme (second :: text) = (.number, 1 + (1 + runLength isNumberChar text)) := by
        simp only [dotLexeme, hdigit, if_true, Prod.mk.injEq, true_and]
        omega
      have hsecond : second ≠ '<' := by
        rintro rfl
        simp at hdigit
      obtain ⟨hsame, hle, hmem⟩ :=
        (StopsAtTag.runLength (p := isNumberChar) (by decide)).cons hsecond rest hafter
      refine .plain (l := .number) (n := 1 + (1 + runLength isNumberChar rest)) trivial
        (by rw [hdot, hnumber]) ?_ (by omega) ?_ (.inr ?_)
      · rw [List.cons_append, hdot, List.cons_append, hnumber, hsame]
      · rw [List.length_cons]
        omega
      · rw [Nat.add_comm, List.take_succ_cons, List.mem_cons, not_or]
        exact ⟨by decide, hmem⟩

/-- **Every lexeme is recognised alike**, or is one that runs on. -/
theorem lexemeCut {body after : List Char} (hne : body ≠ []) (hafter : TagOrEnd after)
    (hlf : '\n' ∉ body ++ after) : LexemeCut body after := by
  obtain ⟨first, rest, rfl⟩ := List.exists_cons_of_ne_nil hne
  simp only [List.cons_append, List.mem_cons, not_or] at hlf
  by_cases hslash : first = '/'
  · subst hslash
    exact lexemeCut_slash hafter hlf.2
  by_cases hquote : first = '\x22' ∨ first = '\x27'
  · have hlexeme (text : List Char) : lexeme? (first :: text) = some (.quote first, 1) := by
      rcases hquote with rfl | rfl <;> rfl
    exact .quote hquote rfl (hlexeme rest) (hlexeme (rest ++ after))
  by_cases htemplate : first = templateMark
  · subst htemplate
    exact .template rfl rfl rfl
  by_cases hdot : first = '.'
  · subst hdot
    exact lexemeCut_dot hafter
  by_cases hoperator : isOperatorChar first = true
  · exact .run rfl hoperator
  have hlt : first ≠ '<' := by
    rintro rfl
    exact hoperator (by decide)
  rw [not_or] at hquote
  -- what is left of the table depends on the first character alone
  have htable (text : List Char) : lexeme? (first :: text) =
      if first.isDigit then some (.number, 1 + numberTail text)
      else if isWordStart first then some (.word, 1 + runLength isWordChar text)
      else if ";,:?".toList.contains first then some (.punctuation, 1)
      else if "\x7d)]".toList.contains first then some (.closing first, 1)
      else (closerOf? first).map fun closer => (.opening closer, 1) := by
    simp only [lexeme?, beq_iff_eq, hslash, hquote.1, hquote.2, htemplate, hdot, hoperator,
      Bool.or_eq_true, or_self, if_false, Bool.false_eq_true]
  by_cases hdigit : first.isDigit = true
  · exact .of_stopsAtTag stopsAtTag_numberTail (l := .number) trivial hlt
      (fun text => by rw [htable, if_pos hdigit]) hafter
  by_cases hword : isWordStart first = true
  · exact .of_stopsAtTag (.runLength (p := isWordChar) (by decide)) (l := .word) trivial hlt
      (fun text => by rw [htable, if_neg hdigit, if_pos hword]) hafter
  have hchar : (∀ text, lexeme? (first :: text) = none) ∨
      ∃ l : Lexeme, l.Plain ∧ ∀ text, lexeme? (first :: text) = some (l, 1) := by
    simp only [htable, hdigit, hword, if_false, Bool.false_eq_true]
    split
    · exact .inr ⟨.punctuation, trivial, fun _ => rfl⟩
    · split
      · exact .inr ⟨.closing first, trivial, fun _ => rfl⟩
      · cases closerOf? first with
        | none => exact .inl fun _ => rfl
        | some closer => exact .inr ⟨.opening closer, trivial, fun _ => rfl⟩
  rcases hchar with hnone | ⟨l, hl, hsome⟩
  · exact .nothing (hnone rest) (hnone (rest ++ after))
  · exact .of_char hl (hsome rest) (hsome (rest ++ after))

/-! ### Tokens -/

section Tokens

variable {e : EmbeddingElement} {c : Cursor} {body after : List Char} {s : State}

theorem enter_cutTo (h : e.Ahead c body after) (s : State) :
    enter (c.cutTo body) s = enter c s := by
  simp only [enter, h.indentation_cutTo]
  rfl

theorem inCode_of_lexeme {l : Lexeme} {n : Nat} (hblanks : c.readBlanks? = none)
    (hlexeme : lexeme? c.rest = some (l, n)) : inCode c s = finish l (c.read n) s := by
  simp only [inCode, hblanks, hlexeme]

/-- A plain lexeme is all of its token, and only its text counts. -/
theorem finish_plain {l : Lexeme} (hl : l.Plain) {d : Cursor} (htoken : d.token = c.token)
    (s : State) :
    (finish l c s).cursor = c ∧ (finish l d s).cursor = d ∧
      (finish l d s).style = (finish l c s).style ∧
      (finish l d s).state = (finish l c s).state := by
  cases l with
  | lineComment | blockComment | quote | template => exact hl.elim
  | word =>
    refine ⟨rfl, rfl, ?_, ?_⟩
    · simp only [finish, htoken]
    · simp only [finish, htoken]
  | number | opening | closing | dot | punctuation | operator => exact ⟨rfl, rfl, rfl, rfl⟩

theorem lexeme?_operator {first : Char} (h : isOperatorChar first = true) (text : List Char) :
    lexeme? (first :: text) = some (.operator, 1 + runLength isOperatorChar text) := by
  simp [isOperatorChar] at h
  rcases h with rfl | rfl | rfl | rfl | rfl | rfl | rfl | rfl | rfl | rfl | rfl | rfl <;> rfl

theorem isBlank_of_operator {first : Char} (h : isOperatorChar first = true) :
    isBlank first = false := by
  simp [isOperatorChar] at h
  rcases h with rfl | rfl | rfl | rfl | rfl | rfl | rfl | rfl | rfl | rfl | rfl | rfl <;> rfl

/-- The token of a run of operators. -/
theorem inCode_run {first : Char} {rest : List Char} (hrest : c.rest = first :: rest)
    (h : isOperatorChar first = true) (s : State) :
    inCode c s = ⟨some .operator, c.skip isOperatorChar, { s with previous := .other }⟩ := by
  have hblanks : c.readBlanks? = none := by
    simp [Cursor.readBlanks?, Cursor.readWhile?, Cursor.readIf?, Cursor.peek?, hrest,
      isBlank_of_operator h]
  have hskip : c.skip isOperatorChar = c.read (1 + runLength isOperatorChar rest) := by
    rw [Cursor.skip, hrest, List.takeWhile_cons_of_pos h, List.length_cons, Nat.add_comm]
    rfl
  rw [inCode_of_lexeme hblanks (hrest ▸ lexeme?_operator h rest), hskip]
  rfl

/-- **The rest of a run is read as the run was**, in the state that the
run left. -/
theorem token_run {d : Cursor} {text left : List Char} (hbefore : d.before ≠ [])
    (hrest : d.rest = text ++ left) (hne : text ≠ [])
    (htext : ∀ x ∈ text, isOperatorChar x = true) (hleft : left.takeWhile isOperatorChar = [])
    (hzone : s.zone = .code) (hprevious : s.previous = .other) :
    d.Took text (token d s).cursor ∧ (token d s).style = some .operator ∧
      (token d s).state = s := by
  have henter : enter d s = s := by
    have hstart : d.atStart = false := by simp [Cursor.atStart, hbefore]
    simp only [enter, hstart, Bool.false_eq_true, if_false]
  have htoken : token d s = ⟨some .operator, d.skip isOperatorChar, s⟩ := by
    obtain ⟨first, more, rfl⟩ := List.exists_cons_of_ne_nil hne
    simp only [token, hzone, henter]
    rw [inCode_run hrest (htext first (List.mem_cons_self ..)), ← hprevious]
  have htook := Cursor.took_skip isOperatorChar d
  rw [hrest, List.takeWhile_append_of_pos htext, hleft, List.append_nil] at htook
  rw [htoken]
  exact ⟨htook, rfl, rfl⟩

/-- A run of operators that loses all but its first: the others are read
again. -/
theorem fate_of_first (o : Options) {first : Char} {run left : List Char} {r r' : Step State}
    (hbody : body = first :: (run ++ left)) (hrun : ∀ x ∈ run, isOperatorChar x = true)
    (hleft : left.takeWhile isOperatorChar = []) (htook : c.Took [first] (e.trim r.cursor))
    (htook' : (c.cutTo body).Took (first :: run) r'.cursor) (hstyle : r.style = some .operator)
    (hstyle' : r'.style = some .operator) (hzone : r.state.zone = .code)
    (hprevious : r.state.previous = .other) (hstate : r'.state = r.state) :
    e.Fate (tokenizer o) c body after r r' := by
  have hsame : r'.style = r.style := hstyle'.trans hstyle.symm
  cases run with
  | nil =>
    have hcut : body = [first] ++ left := hbody
    exact .kept hcut (by simp) htook htook' hsame hstate
  | cons second run =>
    refine .split hbody (by simp) htook htook' hsame hstate ?_
    intro d hbefore _ hrest
    rw [hstyle]
    exact token_run hbefore hrest (by simp) hrun hleft hzone hprevious

/-- A run that a closing tag follows takes the `<` of the tag along, and
is torn there. -/
theorem took_trim_of_run (h : e.Ahead c body after) (hafter : e.Closes after) {first : Char}
    {rest : List Char} (hbody : body = first :: rest) {d : Cursor}
    (htook : c.Took (body ++ ['<']) d) : c.Took [first] (e.trim d) := by
  obtain ⟨more, hmore⟩ := hafter.exists_cons
  have hclear : e.Clear (body ++ ['<']) [] := by
    intro skipped left hcut hne hcloses
    rw [List.append_nil] at hcloses
    rcases List.eq_nil_or_concat left with rfl | ⟨left, last, rfl⟩
    · exact hne rfl
    rw [List.concat_eq_append, ← List.append_assoc] at hcut
    obtain ⟨hbody, hlast⟩ := List.append_inj' hcut rfl
    obtain rfl : '<' = last := by simpa using hlast
    rw [List.concat_eq_append] at hcloses
    by_cases hnil : left = []
    · subst hnil
      exact EmbeddingElement.not_closes_singleton hcloses
    · refine h.clear skipped left hbody hnil ?_
      have hlonger := hcloses.append more
      rwa [List.append_assoc, List.singleton_append, ← hmore] at hlonger
  have htear : e.mayTear (body ++ ['<']) (!d.atEnd) = true := by
    have hopener : EmbeddingElement.endsInOpener ['<'] = true := rfl
    simp [EmbeddingElement.mayTear, EmbeddingElement.endsInOpener_append body hopener]
  have hfirst : body ++ ['<'] = first :: (rest ++ ['<']) := by rw [hbody, List.cons_append]
  exact EmbeddingElement.took_trim_of_mayTear h.token htook hfirst h.not_closes
    (EmbeddingElement.findClosing?_eq_none hclear) htear

/-- A text that starts with an operator is a run of them, and what stands
behind the run. -/
theorem exists_run {first : Char} (hfirst : isOperatorChar first = true) (rest : List Char) :
    ∃ run left, rest = run ++ left ∧ (∀ x ∈ first :: run, isOperatorChar x = true) ∧
      left.takeWhile isOperatorChar = [] := by
  have hall : ∀ x ∈ rest.takeWhile isOperatorChar, isOperatorChar x = true :=
    fun x hx => List.mem_takeWhile_imp hx
  refine ⟨rest.takeWhile isOperatorChar, rest.dropWhile isOperatorChar,
    List.takeWhile_append_dropWhile.symm, List.forall_mem_cons.mpr ⟨hfirst, hall⟩, ?_⟩
  have hidem : (rest.takeWhile isOperatorChar ++ rest.dropWhile isOperatorChar).takeWhile
      isOperatorChar = rest.takeWhile isOperatorChar ++
        (rest.dropWhile isOperatorChar).takeWhile isOperatorChar :=
    List.takeWhile_append_of_pos hall
  rw [List.takeWhile_append_dropWhile] at hidem
  simpa using hidem

/-- **A run of operators** is kept, or loses all but its first to the tag
that may start with its last. -/
theorem fate_of_run (o : Options) (h : e.Ahead c body after) {first : Char} {rest : List Char}
    (hbody : body = first :: rest) (hfirst : isOperatorChar first = true) (hzone : s.zone = .code) :
    e.Fate (tokenizer o) c body after (inCode c s) (inCode (c.cutTo body) s) := by
  obtain ⟨run, left, rfl, hall, hleft⟩ := exists_run hfirst rest
  have hbody : body = (first :: run) ++ left := hbody
  have hrest : c.rest = first :: (run ++ (left ++ after)) := by rw [h.rest, hbody]; simp
  have hr := inCode_run hrest hfirst s
  have hr' := inCode_run (c := c.cutTo body) hbody hfirst s
  have hstyle : (inCode (c.cutTo body) s).style = (inCode c s).style := by rw [hr, hr']
  have hstate : (inCode (c.cutTo body) s).state = (inCode c s).state := by rw [hr, hr']
  have htook : c.Took ((first :: run) ++ (left ++ after).takeWhile isOperatorChar)
      (inCode c s).cursor := by
    have hskip := Cursor.took_skip isOperatorChar c
    rw [hrest, ← List.cons_append, List.takeWhile_append_of_pos hall] at hskip
    rw [hr]
    exact hskip
  -- on the cut line the token is the run
  have htook' : (c.cutTo body).Took (first :: run) (inCode (c.cutTo body) s).cursor := by
    have hskip := Cursor.took_skip isOperatorChar (c.cutTo body)
    have hwidth : (c.cutTo body).rest.takeWhile isOperatorChar = first :: run := by
      change body.takeWhile isOperatorChar = first :: run
      rw [hbody, List.takeWhile_append_of_pos hall, hleft, List.append_nil]
    rw [hwidth] at hskip
    rw [hr']
    exact hskip
  have hsplit (htook : c.Took [first] (e.trim (inCode c s).cursor)) :
      e.Fate (tokenizer o) c body after (inCode c s) (inCode (c.cutTo body) s) :=
    fate_of_first o hbody (fun x hx => hall x (List.mem_cons_of_mem _ hx)) hleft htook htook'
      (by rw [hr]) (by rw [hr']) (by rw [hr]; exact hzone) (by rw [hr]) hstate
  cases left with
  | nil =>
    rw [List.append_nil] at hbody
    rw [List.nil_append, ← hbody] at htook
    rw [← hbody] at htook'
    rcases h.ends with rfl | hcloses
    · -- the line ends with the run
      rw [List.takeWhile_nil, List.append_nil] at htook
      exact h.fate_of_open htook' hstyle (.inl ⟨rfl, htook, hstate⟩)
    · have htag : after.takeWhile isOperatorChar = ['<'] := by
        obtain ⟨_, ⟨gap, spelling, gap', rfl, -, -, -⟩, left, rfl⟩ := hcloses
        rfl
      rw [htag] at htook
      exact hsplit (took_trim_of_run h hcloses hbody htook)
  | cons stop left =>
    -- something else than an operator ends the run
    have hstop : ((stop :: left) ++ after).takeWhile isOperatorChar = [] := by
      cases hop : isOperatorChar stop with
      | false => simp [hop]
      | true => simp [hop] at hleft
    rw [hstop, List.append_nil] at htook
    have hclear := h.clear
    rw [hbody] at hclear
    have hfind := EmbeddingElement.findClosing?_eq_none hclear.take
    cases htear : e.mayTear (first :: run) (!(inCode c s).cursor.atEnd) with
    | true =>
      exact hsplit
        (EmbeddingElement.took_trim_of_mayTear h.token htook rfl h.not_closes hfind htear)
    | false =>
      have htrim := EmbeddingElement.trim_eq_self h.token htook hfind htear
      exact .kept hbody (by simp) (htrim.symm ▸ htook) htook' hstyle hstate

/-- **Every token outside comments and template literals has a fate.** -/
theorem inCode_fate (o : Options) (h : e.Ahead c body after) (hlf : '\n' ∉ body ++ after)
    (hzone : s.zone = .code) :
    e.Fate (tokenizer o) c body after (inCode c s) (inCode (c.cutTo body) s) := by
  have hstring : ¬ e.TagChar '\x22' ∧ ¬ e.TagChar '\x27' ∧ ¬ e.TagChar templateMark := by
    cases e <;> decide
  rcases h.readBlanks?_cutTo with ⟨hblanks, hblanks'⟩ | ⟨n, hpos, hle, hmem, hblanks, hblanks'⟩
  swap
  · simp only [inCode, hblanks, hblanks']
    exact h.kept_of_read hpos hle (.inr hmem) rfl rfl rfl rfl
  have hfinish {l : Lexeme} {n : Nat} (hl : lexeme? (body ++ after) = some (l, n)) :
      inCode c s = finish l (c.read n) s := inCode_of_lexeme hblanks (h.rest ▸ hl)
  have hfinish' {l : Lexeme} {n : Nat} (hl : lexeme? body = some (l, n)) :
      inCode (c.cutTo body) s = finish l ((c.cutTo body).read n) s := inCode_of_lexeme hblanks' hl
  cases lexemeCut h.ne h.stop hlf with
  | nothing hnone' hnone =>
    obtain ⟨first, rest, hbody⟩ := List.exists_cons_of_ne_nil h.ne
    have hnext : c.next? = some (first, c.read 1) := by
      simp [Cursor.next?, Cursor.peek?, h.rest, hbody]
    have hnext' : (c.cutTo body).next? = some (first, (c.cutTo body).read 1) := by
      simp [Cursor.next?, Cursor.peek?, Cursor.cutTo, hbody]
    have hr : inCode c s = ⟨none, c.read 1, { s with previous := .other }⟩ := by
      simp only [inCode, hblanks, h.rest, hnone, hnext]
    have hr' : inCode (c.cutTo body) s =
        ⟨none, (c.cutTo body).read 1, { s with previous := .other }⟩ := by
      have hrest : (c.cutTo body).rest = body := rfl
      simp only [inCode, hblanks', hrest, hnone', hnext']
    rw [hr, hr']
    exact h.kept_of_read Nat.one_pos (by rw [hbody]; simp) (.inl rfl) rfl rfl rfl rfl
  | @plain l n hl hlexeme' hlexeme hpos hle hmem =>
    obtain ⟨htook, htook'⟩ := h.took_read hle
    have htoken : ((c.cutTo body).read n).token = (c.read n).token := by
      rw [htook.token, htook'.token]
      rfl
    obtain ⟨hcursor, hcursor', hstyle, hstate⟩ := finish_plain hl htoken s
    rw [hfinish hlexeme, hfinish' hlexeme']
    exact h.kept_of_read hpos hle hmem hcursor hcursor' hstyle hstate
  | lineComment hlexeme' hlexeme =>
    have htook := Cursor.took_read (body ++ after).length c
    have htook' := Cursor.took_read body.length (c.cutTo body)
    have hrest : (c.cutTo body).rest = body := rfl
    rw [h.rest, List.take_length] at htook
    rw [hrest, List.take_length] at htook'
    rw [hfinish hlexeme, hfinish' hlexeme']
    refine h.fate_of_open htook' rfl ?_
    rcases h.ends with rfl | hcloses
    · rw [List.append_nil] at htook ⊢
      exact .inl ⟨rfl, htook, rfl⟩
    · exact .inr ⟨after, hcloses, htook⟩
  | blockComment hbody hlexeme' hlexeme =>
    rw [hfinish hlexeme, hfinish' hlexeme']
    exact h.fate_of_scan EmbeddingElement.bounded_comment hbody (some .comment)
      (fun closed => { s with zone := if closed then .code else .comment }) rfl rfl
  | @quote mark _ hmark hbody hlexeme' hlexeme =>
    rw [hfinish hlexeme, hfinish' hlexeme']
    have htag : ¬ e.TagChar mark := by
      rcases hmark with rfl | rfl
      · exact hstring.1
      · exact hstring.2.1
    exact h.fate_of_scan (EmbeddingElement.bounded_quoted htag) hbody (some .string)
      (fun _ => { s with previous := .other }) rfl rfl
  | template hbody hlexeme' hlexeme =>
    rw [hfinish hlexeme, hfinish' hlexeme']
    exact h.fate_of_scan (EmbeddingElement.bounded_quoted hstring.2.2) hbody (some .string)
      (fun closed => { s with previous := .other, zone := if closed then .code else .template })
      rfl rfl
  | run hbody hfirst => exact fate_of_run o h hbody hfirst hzone

/-- **Every token of a script has a fate.** -/
theorem token_fate (o : Options) (h : e.Ahead c body after) (hlf : '\n' ∉ body ++ after)
    (s : State) :
    e.Fate (tokenizer o) c body after (token c s) (token (c.cutTo body) s) := by
  have hmark : ¬ e.TagChar templateMark := by cases e <;> decide
  have hopener : body = [] ++ body := rfl
  unfold token
  rw [enter_cutTo h]
  cases hzone : s.zone with
  | comment =>
    refine h.fate_of_scan EmbeddingElement.bounded_comment hopener (some .comment)
      (fun closed => { enter c s with zone := if closed then .code else .comment }) ?_ ?_
    · rw [List.length_nil, Cursor.read_zero]
      rfl
    · rw [List.length_nil, Cursor.read_zero]
      rfl
  | template =>
    refine h.fate_of_scan (EmbeddingElement.bounded_quoted hmark) hopener (some .string)
      (fun closed => { enter c s with zone := if closed then .code else .template }) ?_ ?_
    · rw [List.length_nil, Cursor.read_zero]
      rfl
    · rw [List.length_nil, Cursor.read_zero]
      rfl
  | code => exact inCode_fate o h hlf hzone

end Tokens

end Script

/-! ## Stylesheets -/

namespace Stylesheet

/-- A lexeme that is the whole of its token. -/
def Lexeme.Plain : Lexeme → Prop
  | comment | quote _ => False
  | _ => True

/-- How the lexeme at the start of `body` is recognised, on the line and on
the line cut behind `body`. -/
inductive LexemeCut (body after : List Char) : Prop
  | nothing : lexeme? body = none → lexeme? (body ++ after) = none → LexemeCut body after
  | plain {l : Lexeme} {n : Nat} : l.Plain → lexeme? body = some (l, n) →
      lexeme? (body ++ after) = some (l, n) → 0 < n → n ≤ body.length →
      n = 1 ∨ '<' ∉ body.take n → LexemeCut body after
  | comment {left : List Char} : body = ['/', '*'] ++ left → lexeme? body = some (.comment, 2) →
      lexeme? (body ++ after) = some (.comment, 2) → LexemeCut body after
  | quote {mark : Char} {left : List Char} : mark = '\x22' ∨ mark = '\x27' →
      body = [mark] ++ left → lexeme? body = some (.quote mark, 1) →
      lexeme? (body ++ after) = some (.quote mark, 1) → LexemeCut body after

/-! ### Lexemes -/

/-- A width, if there is one, that ends where a tag starts. -/
def MayStop (width? : List Char → Option Nat) : Prop :=
  ∀ text after, TagOrEnd after → width? (text ++ after) = width? text ∧
    ∀ n, width? text = some n → n ≤ text.length ∧ '<' ∉ text.take n

/-- What a first character starts is a plain lexeme, if anything, and ends
where a tag starts. -/
def TailStops (tail? : List Char → Option (Lexeme × Nat)) : Prop :=
  ∀ text after, TagOrEnd after → tail? (text ++ after) = tail? text ∧
    ∀ l n, tail? text = some (l, n) →
      l.Plain ∧ ∃ k, n = 1 + k ∧ k ≤ text.length ∧ '<' ∉ text.take k

theorem LexemeCut.of_tailStops {tail? : List Char → Option (Lexeme × Nat)} (h : TailStops tail?)
    {first : Char} (hfirst : first ≠ '<') {rest after : List Char}
    (hlexeme : ∀ text, lexeme? (first :: text) = tail? text) (hafter : TagOrEnd after) :
    LexemeCut (first :: rest) after := by
  obtain ⟨hsame, hplain⟩ := h rest after hafter
  cases htail : tail? rest with
  | none =>
    refine .nothing (by rw [hlexeme, htail]) ?_
    rw [List.cons_append, hlexeme, hsame, htail]
  | some found =>
    obtain ⟨l, n⟩ := found
    obtain ⟨hl, k, rfl, hle, hmem⟩ := hplain l n htail
    refine .plain hl (by rw [hlexeme, htail]) ?_ (by omega) ?_ (.inr ?_)
    · rw [List.cons_append, hlexeme, hsame, htail]
    · rw [List.length_cons]
      omega
    · rw [Nat.add_comm, List.take_succ_cons, List.mem_cons, not_or]
      exact ⟨Ne.symm hfirst, hmem⟩

theorem stopsAtTag_quantityLength {p : Char → Bool} (hp : p '<' = false) :
    StopsAtTag (quantityLength p) :=
  .andThen (.runLength hp) (.runLength (by decide))

theorem mayStop_unsignedLength? : MayStop unsignedLength? := by
  intro text after hafter
  cases text with
  | nil =>
    refine ⟨?_, fun n hn => by simp [unsignedLength?] at hn⟩
    rcases hafter with rfl | ⟨more, rfl⟩
    · rfl
    · rfl
  | cons first text =>
    by_cases hdot : first = '.'
    · subst hdot
      have hhead : (text ++ after).head?.any Char.isDigit = text.head?.any Char.isDigit := by
        cases text with
        | cons second text => rfl
        | nil =>
          rcases hafter with rfl | ⟨more, rfl⟩
          · rfl
          · rfl
      have hfirst : '.' ≠ '<' := by decide
      obtain ⟨hsame, hle, hmem⟩ :=
        (stopsAtTag_quantityLength (p := Char.isDigit) (by decide)).cons hfirst text hafter
      refine ⟨by simp only [List.cons_append, unsignedLength?, hhead, hsame], ?_⟩
      intro n hn
      simp only [unsignedLength?] at hn
      split at hn
      · obtain rfl := Option.some.inj hn
        exact ⟨hle, hmem⟩
      · simp at hn
    · have hunfold (text : List Char) : unsignedLength? (first :: text) =
          if first.isDigit then some (1 + quantityLength (fun c => c.isDigit || c == '.') text)
          else none := by
        unfold unsignedLength?
        split
        · rename_i heq
          exact absurd (List.cons.inj heq).1 hdot
        · rename_i heq
          obtain ⟨rfl, rfl⟩ := List.cons.inj heq
          rfl
        · rename_i heq
          simp at heq
      rw [List.cons_append, hunfold, hunfold]
      split
      · rename_i hdigit
        have hfirst : first ≠ '<' := by
          rintro rfl
          simp at hdigit
        obtain ⟨hsame, hle, hmem⟩ :=
          (stopsAtTag_quantityLength (p := fun c => c.isDigit || c == '.') (by decide)).cons hfirst
            text hafter
        refine ⟨by rw [hsame], ?_⟩
        intro n hn
        obtain rfl := Option.some.inj hn
        exact ⟨hle, hmem⟩
      · exact ⟨rfl, fun n hn => by simp at hn⟩

theorem mayStop_nameLength? : MayStop nameLength? := by
  intro text after hafter
  cases text with
  | nil =>
    refine ⟨?_, fun n hn => by simp [nameLength?] at hn⟩
    rcases hafter with rfl | ⟨more, rfl⟩
    · rfl
    · rfl
  | cons first text =>
    simp only [List.cons_append, nameLength?]
    split
    · rename_i hstart
      have hfirst : first ≠ '<' := by
        rintro rfl
        exact absurd hstart (by decide)
      obtain ⟨hsame, hle, hmem⟩ :=
        (StopsAtTag.runLength (p := isNameChar) (by decide)).cons hfirst text hafter
      refine ⟨by rw [hsame], ?_⟩
      intro n hn
      obtain rfl := Option.some.inj hn
      exact ⟨hle, hmem⟩
    · exact ⟨rfl, fun n hn => by simp at hn⟩

/-- A lexeme behind its first character, with a width of its own. -/
theorem TailStops.of_mayStop {width? : List Char → Option Nat} (h : MayStop width?) {l : Lexeme}
    (hl : l.Plain) : TailStops fun text => (width? text).map fun n => (l, 1 + n) := by
  intro text after hafter
  obtain ⟨hsame, hwidth⟩ := h text after hafter
  refine ⟨by simp only [hsame], ?_⟩
  intro l' m hm
  simp only [Option.map_eq_some_iff, Prod.mk.injEq] at hm
  obtain ⟨n, hn, rfl, rfl⟩ := hm
  exact ⟨hl, n, rfl, hwidth n hn⟩

/-- A width that counts its first character. -/
theorem TailStops.of_mayStop_cons {width? : List Char → Option Nat} (h : MayStop width?)
    (hpos : ∀ text n, width? text = some n → 0 < n) {l : Lexeme} (hl : l.Plain) (first : Char) :
    TailStops fun text => (width? (first :: text)).map fun n => (l, n) := by
  intro text after hafter
  obtain ⟨hsame, hwidth⟩ := h (first :: text) after hafter
  rw [List.cons_append] at hsame
  refine ⟨by simp only [hsame], ?_⟩
  intro l' m hm
  simp only [Option.map_eq_some_iff, Prod.mk.injEq] at hm
  obtain ⟨n, hn, rfl, rfl⟩ := hm
  obtain ⟨hle, hmem⟩ := hwidth n hn
  obtain ⟨k, rfl⟩ := Nat.exists_eq_add_of_lt (hpos _ n hn)
  rw [Nat.zero_add] at hle hmem ⊢
  rw [List.length_cons] at hle
  rw [List.take_succ_cons, List.mem_cons, not_or] at hmem
  exact ⟨hl, k, Nat.add_comm .., by omega, hmem.2⟩

theorem TailStops.orElse {tail? more? : List Char → Option (Lexeme × Nat)} (h : TailStops tail?)
    (h' : TailStops more?) : TailStops fun text => (tail? text).or (more? text) := by
  intro text after hafter
  obtain ⟨hsame, hplain⟩ := h text after hafter
  obtain ⟨hsame', hplain'⟩ := h' text after hafter
  refine ⟨by simp only [hsame, hsame'], ?_⟩
  intro l n hn
  rcases Option.or_eq_some_iff.mp hn with hn | ⟨-, hn⟩
  · exact hplain l n hn
  · exact hplain' l n hn

/-- A name behind a first character, and a second one that may start
it. -/
theorem tailStops_name {l : Lexeme} (hl : l.Plain) {tail? : List Char → Option (Lexeme × Nat)}
    {p : Char → Bool} (hp : p '<' = false) {width? : List Char → Option Nat} (h : MayStop width?)
    (hnil : tail? [] = none) (hcons : ∀ second text, tail? (second :: text) =
      if p second then (width? text).map fun n => (l, 2 + n) else none) : TailStops tail? := by
  intro text after hafter
  cases text with
  | nil =>
    refine ⟨?_, fun l m hm => by simp [hnil] at hm⟩
    rcases hafter with rfl | ⟨more, rfl⟩
    · rfl
    · rw [List.nil_append, hcons, hp, hnil]
      rfl
  | cons second text =>
    rw [List.cons_append, hcons, hcons]
    split
    · rename_i hsecond
      have hne : second ≠ '<' := by
        rintro rfl
        rw [hp] at hsecond
        exact absurd hsecond (by decide)
      obtain ⟨hsame, hwidth⟩ := h text after hafter
      refine ⟨by rw [hsame], ?_⟩
      intro l' m hm
      simp only [Option.map_eq_some_iff, Prod.mk.injEq] at hm
      obtain ⟨n, hn, rfl, rfl⟩ := hm
      obtain ⟨hle, hmem⟩ := hwidth n hn
      refine ⟨hl, 1 + n, by omega, by rw [List.length_cons]; omega, ?_⟩
      rw [Nat.add_comm, List.take_succ_cons, List.mem_cons, not_or]
      exact ⟨Ne.symm hne, hmem⟩
    · exact ⟨rfl, fun l m hm => by simp at hm⟩

theorem mayStop_of_stopsAtTag {f : List Char → Nat} (h : StopsAtTag f) :
    MayStop fun text => some (f text) := by
  intro text after hafter
  obtain ⟨hsame, hle, hmem⟩ := h text after hafter
  refine ⟨by simp only [hsame], ?_⟩
  intro n hn
  obtain rfl := Option.some.inj hn
  exact ⟨hle, hmem⟩

/-- The name behind two hyphens. -/
def secondHyphen? : List Char → Option (Lexeme × Nat)
  | '-' :: more => (nameLength? more).map fun n => (.ident, 2 + n)
  | _ => none

theorem tailStops_hyphenLexeme? : TailStops hyphenLexeme? := by
  have hsplit : hyphenLexeme? = fun text =>
      ((unsignedLength? text).map fun n => (.number, 1 + n)).or
        (((nameLength? text).map fun n => (.ident, 1 + n)).or (secondHyphen? text)) := by
    funext text
    unfold hyphenLexeme? secondHyphen?
    cases unsignedLength? text with
    | some n => rfl
    | none =>
      cases nameLength? text with
      | some n => rfl
      | none =>
        simp only [Option.map_none, Option.none_or]
        split
        · simp_all
        · simp_all
        · rfl
        · rename_i hne
          split
          · exact absurd rfl (hne _)
          · rfl
  have hsecond : TailStops secondHyphen? := by
    refine tailStops_name (l := .ident) (p := (· == '-')) trivial (by decide) mayStop_nameLength?
      rfl ?_
    intro second text
    unfold secondHyphen?
    split
    · rename_i heq
      obtain ⟨rfl, rfl⟩ := List.cons.inj heq
      rfl
    · rename_i hne
      have hhyphen : second ≠ '-' := by
        rintro rfl
        exact hne text rfl
      simp [hhyphen]
  rw [hsplit]
  exact .orElse (.of_mayStop (l := .number) mayStop_unsignedLength? trivial)
    (.orElse (.of_mayStop (l := .ident) mayStop_nameLength? trivial) hsecond)

theorem tailStops_atLexeme? : TailStops atLexeme? := by
  refine tailStops_name (l := .atKeyword) (p := fun c => isNameStart c || c == '-') trivial
    (by decide) (mayStop_of_stopsAtTag (.runLength (p := isNameChar) (by decide))) rfl ?_
  intro second text
  rfl

/-- The name behind a dot. -/
def className? : List Char → Option (Lexeme × Nat)
  | c :: more =>
    if isNameStart c || c == '-' then some (.className, 2 + runLength isNameChar more) else none
  | [] => none

theorem tailStops_dotLexeme? : TailStops dotLexeme? := by
  have hsplit : dotLexeme? = fun text =>
      ((unsignedLength? ('.' :: text)).map fun n => (.number, n)).or (className? text) := by
    funext text
    unfold dotLexeme?
    cases unsignedLength? ('.' :: text) with
    | some n => rfl
    | none =>
      cases text with
      | nil => rfl
      | cons second text => rfl
  have hname : TailStops className? := by
    refine tailStops_name (l := .className) (p := fun c => isNameStart c || c == '-') trivial
      (by decide) (mayStop_of_stopsAtTag (.runLength (p := isNameChar) (by decide))) rfl ?_
    intro second text
    rfl
  rw [hsplit]
  exact .orElse (.of_mayStop_cons mayStop_unsignedLength? (fun _ _ => unsignedLength?_pos)
    (l := .number) trivial '.') hname

theorem tailStops_hashLexeme? : TailStops hashLexeme? := by
  intro text after hafter
  obtain ⟨hsame, hle, hmem⟩ :=
    StopsAtTag.runLength (p := isNameChar) (by decide) text after hafter
  unfold hashLexeme?
  dsimp only
  rw [hsame]
  refine ⟨rfl, ?_⟩
  intro l n hn
  split at hn
  · simp only [Option.some.injEq, Prod.mk.injEq] at hn
    obtain ⟨rfl, rfl⟩ := hn
    exact ⟨trivial, _, rfl, hle, hmem⟩
  · simp at hn

/-- A word without a `<` stands before a tag or not at all. -/
theorem isPrefixOf_append {word : List Char} (hword : '<' ∉ word) {text after : List Char}
    (hafter : TagOrEnd after) : word.isPrefixOf (text ++ after) = word.isPrefixOf text := by
  induction word generalizing text with
  | nil => simp
  | cons w word ih =>
    rw [List.mem_cons, not_or] at hword
    cases text with
    | nil =>
      rcases hafter with rfl | ⟨more, rfl⟩
      · rfl
      · rw [List.nil_append, List.isPrefixOf_cons_cons, beq_false_of_ne (Ne.symm hword.1)]
        rfl
    | cons first text =>
      rw [List.cons_append, List.isPrefixOf_cons_cons, List.isPrefixOf_cons_cons, ih hword.2]

theorem tailStops_markLexeme? : TailStops markLexeme? := by
  intro text after hafter
  have hword : '<' ∉ "important".toList := by decide
  obtain ⟨hsame, hle, hmem⟩ :=
    StopsAtTag.runLength (p := fun c => c == ' ' || c == '\t') (by decide) text after hafter
  unfold markLexeme?
  dsimp only
  rw [hsame, List.drop_append_of_le_length hle, isPrefixOf_append hword hafter]
  refine ⟨rfl, ?_⟩
  intro l n hn
  split at hn
  · rename_i hpre
    simp only [Option.some.injEq, Prod.mk.injEq] at hn
    obtain ⟨rfl, rfl⟩ := hn
    rw [List.isPrefixOf_iff_prefix] at hpre
    have hlength := hpre.length_le
    rw [List.length_drop] at hlength
    refine ⟨trivial, _, Nat.add_assoc .., by omega, ?_⟩
    rw [List.take_add, List.mem_append, not_or]
    exact ⟨hmem, (List.prefix_iff_eq_take.mp hpre) ▸ hword⟩
  · simp at hn

theorem plain_of_charLexeme? {first : Char} {l : Lexeme} (h : charLexeme? first = some l) :
    l.Plain := by
  have hsome {l' : Lexeme} (heq : some l' = some l) (hl' : l'.Plain) : l.Plain :=
    Option.some.inj heq ▸ hl'
  unfold charLexeme? at h
  split at h
  all_goals try exact hsome h trivial
  split at h
  · exact hsome h trivial
  · simp at h

/-- **Every lexeme is recognised alike**, or is one that runs on. -/
theorem lexemeCut {body after : List Char} (hne : body ≠ []) (hafter : TagOrEnd after) :
    LexemeCut body after := by
  obtain ⟨first, rest, rfl⟩ := List.exists_cons_of_ne_nil hne
  by_cases hcomment : first = '/' ∧ rest.head? = some '*'
  · obtain ⟨rfl, hstar⟩ := hcomment
    obtain ⟨left, rfl⟩ : ∃ left, rest = '*' :: left := by
      cases rest with
      | nil => simp at hstar
      | cons second left => exact ⟨left, by simpa using hstar⟩
    exact .comment rfl rfl rfl
  by_cases hquote : first = '\x22' ∨ first = '\x27'
  · have hlexeme (text : List Char) : lexeme? (first :: text) = some (.quote first, 1) := by
      rcases hquote with rfl | rfl <;> rfl
    exact .quote hquote rfl (hlexeme rest) (hlexeme (rest ++ after))
  by_cases hhyphen : first = '-'
  · subst hhyphen
    exact .of_tailStops tailStops_hyphenLexeme? (by decide) (fun _ => rfl) hafter
  by_cases hdot : first = '.'
  · subst hdot
    exact .of_tailStops tailStops_dotLexeme? (by decide) (fun _ => rfl) hafter
  by_cases hmark : first = '!'
  · subst hmark
    exact .of_tailStops tailStops_markLexeme? (by decide) (fun _ => rfl) hafter
  by_cases hhash : first = '#'
  · subst hhash
    exact .of_tailStops tailStops_hashLexeme? (by decide) (fun _ => rfl) hafter
  by_cases hat : first = '@'
  · subst hat
    exact .of_tailStops tailStops_atLexeme? (by decide) (fun _ => rfl) hafter
  rw [not_or] at hquote
  -- what is left of the table depends on the first character alone
  have htable (text : List Char) (hstar : ¬ (first = '/' ∧ text.head? = some '*')) :
      lexeme? (first :: text) =
        if first.isDigit then (unsignedLength? (first :: text)).map fun n => (.number, n)
        else if isNameStart first then (nameLength? (first :: text)).map fun n => (.ident, n)
        else (charLexeme? first).map fun l => (l, 1) := by
    simp only [lexeme?, Bool.and_eq_true, beq_iff_eq, hstar, hquote.1, hquote.2, hhyphen, hdot,
      hmark, hhash, hat, Bool.or_eq_true, or_self, if_false]
  have hstar : ¬ (first = '/' ∧ (rest ++ after).head? = some '*') := by
    rintro ⟨hslash, hhead⟩
    cases rest with
    | cons second rest => exact hcomment ⟨hslash, hhead⟩
    | nil =>
      rcases hafter with rfl | ⟨more, rfl⟩
      · simp at hhead
      · simp at hhead
  by_cases hdigit : first.isDigit = true
  · have hne : first ≠ '<' ∧ first ≠ '/' := by
      constructor <;> (rintro rfl; exact absurd hdigit (by decide))
    exact .of_tailStops (.of_mayStop_cons mayStop_unsignedLength? (fun _ _ => unsignedLength?_pos)
      (l := .number) trivial first) hne.1
      (fun text => by rw [htable text (fun h => hne.2 h.1), if_pos hdigit]) hafter
  by_cases hname : isNameStart first = true
  · have hne : first ≠ '<' ∧ first ≠ '/' := by
      constructor <;> (rintro rfl; exact absurd hname (by decide))
    exact .of_tailStops (.of_mayStop_cons mayStop_nameLength? (fun _ _ => nameLength?_pos)
      (l := .ident) trivial first) hne.1
      (fun text => by rw [htable text (fun h => hne.2 h.1), if_neg hdigit, if_pos hname]) hafter
  have hbody := htable rest hcomment
  have hline := htable (rest ++ after) hstar
  rw [if_neg hdigit, if_neg hname] at hbody hline
  cases hchar : charLexeme? first with
  | none =>
    rw [hchar, Option.map_none] at hbody hline
    exact .nothing hbody hline
  | some l =>
    rw [hchar, Option.map_some] at hbody hline
    exact .plain (plain_of_charLexeme? hchar) hbody hline Nat.one_pos (by simp) (.inl rfl)

/-! ### Tokens -/

section Tokens

variable {e : EmbeddingElement} {c : Cursor} {body after : List Char} {s : State}

theorem enter_cutTo (h : e.Ahead c body after) (s : State) :
    enter (c.cutTo body) s = enter c s := by
  simp only [enter, h.indentation_cutTo]
  rfl

theorem inRules_of_lexeme {l : Lexeme} {n : Nat} (hblanks : c.readBlanks? = none)
    (hlexeme : lexeme? c.rest = some (l, n)) : inRules c s = finish l (c.read n) s := by
  simp only [inRules, hblanks, hlexeme]

theorem finish_plain {l : Lexeme} (hl : l.Plain) (c : Cursor) (s : State) :
    finish l c s = ⟨lexemeStyle l s, c, afterLexeme l s⟩ := by
  cases l with
  | comment | quote => exact hl.elim
  | _ => rfl

/-- **Every token outside comments has a fate.** -/
theorem inRules_fate (o : Options) (h : e.Ahead c body after) (s : State) :
    e.Fate (tokenizer o) c body after (inRules c s) (inRules (c.cutTo body) s) := by
  have hstring : ¬ e.TagChar '\x22' ∧ ¬ e.TagChar '\x27' := by cases e <;> decide
  rcases h.readBlanks?_cutTo with ⟨hblanks, hblanks'⟩ | ⟨n, hpos, hle, hmem, hblanks, hblanks'⟩
  swap
  · simp only [inRules, hblanks, hblanks']
    exact h.kept_of_read hpos hle (.inr hmem) rfl rfl rfl rfl
  have hfinish {l : Lexeme} {n : Nat} (hl : lexeme? (body ++ after) = some (l, n)) :
      inRules c s = finish l (c.read n) s := inRules_of_lexeme hblanks (h.rest ▸ hl)
  have hfinish' {l : Lexeme} {n : Nat} (hl : lexeme? body = some (l, n)) :
      inRules (c.cutTo body) s = finish l ((c.cutTo body).read n) s := inRules_of_lexeme hblanks' hl
  cases lexemeCut h.ne h.stop with
  | nothing hnone' hnone =>
    have hr : inRules c s = ⟨none, c.read 1, s⟩ := by
      simp only [inRules, hblanks, h.rest, hnone]
    have hr' : inRules (c.cutTo body) s = ⟨none, (c.cutTo body).read 1, s⟩ := by
      have hrest : (c.cutTo body).rest = body := rfl
      simp only [inRules, hblanks', hrest, hnone']
    rw [hr, hr']
    exact h.kept_of_read Nat.one_pos (List.length_pos_iff.mpr h.ne) (.inl rfl) rfl rfl rfl rfl
  | plain hl hlexeme' hlexeme hpos hle hmem =>
    rw [hfinish hlexeme, hfinish' hlexeme', finish_plain hl, finish_plain hl]
    exact h.kept_of_read hpos hle hmem rfl rfl rfl rfl
  | comment hbody hlexeme' hlexeme =>
    rw [hfinish hlexeme, hfinish' hlexeme']
    exact h.fate_of_scan EmbeddingElement.bounded_comment hbody (some .comment)
      (fun closed => { s with zone := if closed then .rules else .comment }) rfl rfl
  | @quote mark _ hmark hbody hlexeme' hlexeme =>
    rw [hfinish hlexeme, hfinish' hlexeme']
    have htag : ¬ e.TagChar mark := by
      rcases hmark with rfl | rfl
      · exact hstring.1
      · exact hstring.2
    exact h.fate_of_scan (EmbeddingElement.bounded_quoted htag) hbody
      (lexemeStyle (.quote mark) s) (fun _ => afterLexeme (.quote mark) s) rfl rfl

/-- **Every token of a stylesheet has a fate.** -/
theorem token_fate (o : Options) (h : e.Ahead c body after) (s : State) :
    e.Fate (tokenizer o) c body after (token c s) (token (c.cutTo body) s) := by
  have hopener : body = [] ++ body := rfl
  unfold token
  rw [enter_cutTo h]
  cases s.zone with
  | comment =>
    refine h.fate_of_scan EmbeddingElement.bounded_comment hopener (some .comment)
      (fun closed => { enter c s with zone := if closed then .rules else .comment }) ?_ ?_
    · rw [List.length_nil, Cursor.read_zero]
      rfl
    · rw [List.length_nil, Cursor.read_zero]
      rfl
  | rules => exact inRules_fate o h (enter c s)

end Tokens

end Stylesheet

end MixedMarkup
