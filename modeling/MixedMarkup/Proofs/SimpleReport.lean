import MixedMarkup.Report
/-!
# Reports — what the simple form keeps

The simple form of a report can be read back. A character is read back from
its escape, whatever follows it (`WrittenPlain.unescape?_append`), so the text of a span
ends at its closing quote and nowhere before; the fields in front of the text
end at the first mark that separates them, since none of them holds it
(`readSpan?_simpleSpan`). No span holds a line feed in its written form, so
the lines of a report are its spans (`lines_render`). With these the spans can
be recovered from the report (`readSimple?_render`), and no two lists of spans have
the same one (`simple_report_lossless`).
-/

namespace MixedMarkup

open Text

/-! ## Reading numbers and texts back -/

namespace Text

/-- The text before the first `mark`, and the text behind it. -/
def cut? (mark : Char) (text : List Char) : Option (List Char × List Char) :=
  match text.dropWhile (· != mark) with
  | [] => none
  | _ :: behind => some (text.takeWhile (· != mark), behind)

/-- The character that is written by a backslash and one more character. -/
def unescapeShort? : Char → Option Char
  | '0' => some '\x00'
  | 't' => some '\t'
  | 'r' => some '\r'
  | 'n' => some '\n'
  | '\x22' => some '\x22'
  | '\\' => some '\\'
  | _ => none

/-- The character whose plain form begins a text, and the text behind it. -/
def unescape? : List Char → Option (Char × List Char)
  | [] => none
  | '\\' :: 'u' :: '{' :: text => do
    let (digits, behind) ← cut? '}' text
    return (Char.ofNat (← digitsValue? 16 digits), behind)
  | '\\' :: c :: text => (unescapeShort? c).map (·, text)
  | c :: text => some (c, text)

/-- The text whose plain form is given without its opening quote. -/
def unquote? (text : List Char) : Option (List Char) :=
  if text = ['\x22'] then some []
  else
    match unescape? text with
    | none => none
    | some (c, behind) =>
      if behind.length < text.length then (unquote? behind).map (c :: ·) else none
termination_by text.length

/-- A text is cut at the first mark. -/
theorem cut?_append {mark : Char} {text : List Char} (h : mark ∉ text) (behind : List Char) :
    cut? mark (text ++ mark :: behind) = some (text, behind) := by
  have hall : ∀ c ∈ text, (c != mark) = true := by
    intro c hc
    simpa using fun heq : c = mark => h (heq ▸ hc)
  rw [cut?, List.dropWhile_append_of_pos hall, List.takeWhile_append_of_pos hall]
  simp

/-! ### Digits -/

theorem hexValue?_digitChar {d : Nat} (h : d < 16) : hexValue? d.digitChar = some d := by
  have hall : ∀ d < 16, hexValue? (Nat.digitChar d) = some d := by decide
  exact hall d h

/-- **A number is read back from its digits** in every base up to sixteen. -/
theorem digitsValue?_toDigits {base : Nat} (hlow : 1 < base) (hhigh : base ≤ 16) (n : Nat) :
    digitsValue? base (Nat.toDigits base n) = some n := by
  -- the digits of a number are those of its quotient by the base, and one more
  induction n using Nat.strongRecOn with
  | ind n ih =>
    rw [Nat.toDigits_eq_if hlow]
    split
    · rename_i hn
      simp [digitsValue?, hexValue?_digitChar (Nat.lt_of_lt_of_le hn hhigh), hn]
    · rename_i hn
      have hdigit : n % base < base := Nat.mod_lt n (by omega)
      have hquotient := ih (n / base) (Nat.div_lt_self (by omega) hlow)
      rw [digitsValue?] at hquotient
      rw [digitsValue?, List.foldlM_append, hquotient]
      simp [hexValue?_digitChar (Nat.lt_of_lt_of_le hdigit hhigh), hdigit, Nat.div_add_mod]

/-- The digits of a number are hexadecimal digits. -/
theorem isHexDigit_of_mem_toDigits {base : Nat} (hlow : 1 < base) (hhigh : base ≤ 16) {n : Nat}
    {c : Char} (h : c ∈ Nat.toDigits base n) : isHexDigit c = true := by
  have hdigit {d : Nat} (hd : d < base) : isHexDigit d.digitChar = true := by
    rw [isHexDigit, hexValue?_digitChar (Nat.lt_of_lt_of_le hd hhigh)]
    rfl
  induction n using Nat.strongRecOn with
  | ind n ih =>
    rw [Nat.toDigits_eq_if hlow] at h
    split at h
    · rename_i hn
      rw [List.mem_singleton.mp h]
      exact hdigit hn
    · rcases List.mem_append.mp h with h | h
      · exact ih (n / base) (Nat.div_lt_self (by omega) hlow) h
      · rw [List.mem_singleton.mp h]
        exact hdigit (Nat.mod_lt n (by omega))

theorem not_mem_hexDigits {c : Char} (h : isHexDigit c = false) (n : Nat) : c ∉ hexDigits n := by
  intro hc
  rw [isHexDigit_of_mem_toDigits (by omega) (by omega) hc] at h
  exact absurd h (by simp)

theorem not_mem_toString {c : Char} (h : isHexDigit c = false) (n : Nat) :
    c ∉ (toString n).toList := by
  rw [Nat.toString_eq_ofList_toDigits, String.toList_ofList]
  intro hc
  rw [isHexDigit_of_mem_toDigits (by omega) (by omega) hc] at h
  exact absurd h (by simp)

theorem digitsValue?_toString (n : Nat) : digitsValue? 10 (toString n).toList = some n := by
  rw [Nat.toString_eq_ofList_toDigits, String.toList_ofList]
  exact digitsValue?_toDigits (by omega) (by omega) n

/-! ### Escapes -/

/-- The ways to write a character in the plain form. -/
inductive WrittenPlain (c : Char) : List Char → Prop
  | short {letter : Char} : unescapeShort? letter = some c → WrittenPlain c ['\\', letter]
  | itself : c ≠ '\\' → c ≠ '\x22' → c ≠ '\n' → WrittenPlain c [c]
  | code : WrittenPlain c ('\\' :: 'u' :: '{' :: (hexDigits c.toNat ++ ['}']))

theorem writtenPlain_escapePlain (c : Char) : WrittenPlain c (escapePlain c) := by
  unfold escapePlain
  split
  · rename_i h
    exact .short (by rw [eq_of_beq h]; rfl)
  split
  · rename_i h
    exact .short (by rw [eq_of_beq h]; rfl)
  split
  · rename_i h
    exact .short (by rw [eq_of_beq h]; rfl)
  split
  · rename_i h
    exact .short (by rw [eq_of_beq h]; rfl)
  split
  · rename_i h
    refine .short ?_
    rcases Bool.or_eq_true_iff.mp h with h | h <;> rw [eq_of_beq h] <;> rfl
  split
  · rename_i hfeed hquote _
    simp only [Bool.or_eq_true, beq_iff_eq, not_or] at hfeed hquote
    exact .itself hquote.2 hquote.1 hfeed
  · exact .code

namespace WrittenPlain

variable {c : Char} {written : List Char}

/-- **A character is read back from its plain form**, whatever follows. -/
theorem unescape?_append (h : WrittenPlain c written) (behind : List Char) :
    unescape? (written ++ behind) = some (c, behind) := by
  cases h with
  | @short letter h =>
    have hletter : letter ≠ 'u' := by
      rintro rfl
      simp [unescapeShort?] at h
    simp [unescape?, h, hletter]
  | itself hslash => simp [unescape?, hslash]
  | code =>
    have hend : '}' ∉ hexDigits c.toNat := not_mem_hexDigits (by decide) c.toNat
    have hcut := cut?_append hend behind
    have hvalue : digitsValue? 16 (hexDigits c.toNat) = some c.toNat :=
      digitsValue?_toDigits (by omega) (by omega) c.toNat
    simp [unescape?, hcut, hvalue]

theorem ne_nil (h : WrittenPlain c written) : written ≠ [] := by
  cases h <;> simp

/-- No line feed is written. -/
theorem no_feed (h : WrittenPlain c written) : '\n' ∉ written := by
  cases h with
  | @short letter h =>
    have hletter : '\n' ≠ letter := by
      rintro rfl
      simp [unescapeShort?] at h
    simp [hletter]
  | itself _ _ hfeed => simpa using hfeed.symm
  | code => simp [not_mem_hexDigits (c := '\n') (by decide)]

end WrittenPlain

theorem quotePlain_no_feed (text : List Char) : '\n' ∉ quotePlain text := by
  have hchars : ∀ c ∈ text, '\n' ∉ escapePlain c :=
    fun c _ => (writtenPlain_escapePlain c).no_feed
  simpa [quotePlain] using hchars

/-- **A text is read back from its plain form.** -/
theorem unquote?_quotePlain (text : List Char) :
    unquote? (text.flatMap escapePlain ++ ['\x22']) = some text := by
  induction text with
  | nil => simp [unquote?]
  | cons c text ih =>
    have hc := writtenPlain_escapePlain c
    have hread := hc.unescape?_append (text.flatMap escapePlain ++ ['\x22'])
    have hlength : 0 < (escapePlain c).length := List.length_pos_iff.mpr hc.ne_nil
    rw [List.flatMap_cons, List.append_assoc, unquote?, hread, if_neg]
    · simp only [List.length_append, Nat.lt_add_left_iff_pos, hlength, if_true, ih, Option.map_some]
    · -- a quote that stands for itself would be the whole of the text behind the character
      intro hquote
      rw [hquote] at hread
      simp [unescape?] at hread

end Text

/-- Whether the name of the grammar can stand in a report between blanks. -/
def Span.PlainlyNamed (s : Span) : Prop := ' ' ∉ s.grammar.toList ∧ '\n' ∉ s.grammar.toList

namespace Report

/-! ## Reading spans back -/

/-- The text of a style in a report. -/
def styleText (style : Option Style) : List Char := ((style.map (·.name)).getD "-").toList

/-- The styles, and that there is none. -/
def allStyles : List (Option Style) :=
  [none, some .tag, some .attr, some .metadata, some .string, some .comment, some .atom,
    some .number, some .error, some .keyword, some .identifier, some .definition, some .property,
    some .operator, some .qualifier, some .builtin]

/-- The style with the text. -/
def readStyle? (text : List Char) : Option (Option Style) :=
  allStyles.find? (styleText · == text)

/-- The span with the written form. -/
def readSpan? (text : List Char) : Option Span := do
  let (line, text) ← cut? ':' text
  let (start, text) ← cut? '-' text
  let (stop, text) ← cut? ' ' text
  let (grammar, text) ← cut? ' ' text
  let (style, text) ← cut? ' ' text
  return {
    line := (← digitsValue? 10 line) - 1
    start := ← digitsValue? 10 start
    stop := ← digitsValue? 10 stop
    text := String.ofList (← unquote? text.tail)
    style := ← readStyle? style
    grammar := String.ofList grammar }

/-- The spans of a report. -/
def readSimple? (report : String) : Option (List Span) :=
  if report = "" then some [] else (report.toList.splitOn '\n').mapM readSpan?

/-- The written form of a span is its fields with the marks between them. -/
theorem toList_simpleSpan (s : Span) :
    (simpleSpan s).toList = (toString (s.line + 1)).toList ++ ':' ::
      ((toString s.start).toList ++ '-' :: ((toString s.stop).toList ++ ' ' ::
        (s.grammar.toList ++ ' ' :: (styleText s.style ++ ' ' :: quotePlain s.text.toList)))) := by
  simp [simpleSpan, styleText, toString, String.toList_append]

theorem mem_allStyles (style : Option Style) : style ∈ allStyles := by
  cases style with
  | none => decide
  | some style => cases style <;> decide

theorem readStyle?_styleText (style : Option Style) :
    readStyle? (styleText style) = some style := by
  have hall : ∀ style ∈ allStyles, readStyle? (styleText style) = some style := by decide
  exact hall style (mem_allStyles style)

/-- No mark and no line feed stands in the text of a style. -/
theorem styleText_plain (style : Option Style) :
    ' ' ∉ styleText style ∧ '\n' ∉ styleText style := by
  have hall : ∀ style ∈ allStyles, ' ' ∉ styleText style ∧ '\n' ∉ styleText style := by decide
  exact hall style (mem_allStyles style)

variable {s : Span} {spans : List Span}

/-- **A span is read back from its written form.** -/
theorem readSpan?_simpleSpan (h : s.PlainlyNamed) : readSpan? (simpleSpan s).toList = some s := by
  rw [toList_simpleSpan, readSpan?, cut?_append (not_mem_toString (by decide) _)]
  simp only [Option.bind_eq_bind, Option.bind_some]
  rw [cut?_append (not_mem_toString (by decide) _)]
  simp only [Option.bind_some]
  rw [cut?_append (not_mem_toString (by decide) _)]
  simp only [Option.bind_some]
  rw [cut?_append h.1]
  simp only [Option.bind_some]
  rw [cut?_append (styleText_plain s.style).1]
  simp only [Option.bind_some, digitsValue?_toString, readStyle?_styleText, quotePlain,
    List.cons_append, List.tail_cons, unquote?_quotePlain, String.ofList_toList, Nat.add_sub_cancel]
  rfl

/-- No line feed stands in the written form. -/
theorem simpleSpan_no_feed (h : s.PlainlyNamed) : '\n' ∉ (simpleSpan s).toList := by
  have hdigits (n : Nat) : '\n' ∉ (toString n).toList := not_mem_toString (by decide) n
  rw [toList_simpleSpan]
  simp only [List.mem_append, List.mem_cons, hdigits, h.2, (styleText_plain s.style).2,
    quotePlain_no_feed, or_false, false_or]
  decide

/-! ## Reading reports back -/

/-- **The lines of a report are its spans.** -/
theorem lines_render (h : ∀ s ∈ spans, s.PlainlyNamed) (hne : spans ≠ []) :
    (simple.render spans).toList.splitOn '\n' = spans.map fun s => (simpleSpan s).toList := by
  have hfeed : ∀ line ∈ spans.map fun s => (simpleSpan s).toList, '\n' ∉ line := by
    intro line hline
    obtain ⟨s, hs, rfl⟩ := List.mem_map.mp hline
    exact simpleSpan_no_feed (h s hs)
  have hrender : (simple.render spans).toList =
      ['\n'].intercalate (spans.map fun s => (simpleSpan s).toList) := by
    rw [render, String.toList_intercalate, List.map_map]
    rfl
  rw [hrender, List.splitOn_intercalate _ hfeed (by simpa using hne)]

/-- **Spans are read back from their report.** -/
theorem readSimple?_render (h : ∀ s ∈ spans, s.PlainlyNamed) :
    readSimple? (simple.render spans) = some spans := by
  have hspans : (spans.map fun s => (simpleSpan s).toList).mapM readSpan? = some spans := by
    induction spans with
    | nil => rfl
    | cons s spans ih =>
      rw [List.forall_mem_cons] at h
      rw [List.map_cons, List.mapM_cons, readSpan?_simpleSpan h.1, ih h.2]
      rfl
  cases hcases : spans with
  | nil => rfl
  | cons s rest =>
    rw [← hcases]
    have hlines := lines_render h (by simp [hcases])
    rw [readSimple?, if_neg, hlines, hspans]
    intro hempty
    -- an empty report has one line, from which no span is read
    rw [hempty, hcases, List.map_cons] at hlines
    obtain ⟨hfirst, -⟩ := List.cons.inj hlines
    have hread := readSpan?_simpleSpan (h s (by simp [hcases]))
    rw [← hfirst] at hread
    exact absurd hread (by simp [readSpan?, cut?])

/-- **The simple form of a report loses nothing**, whatever the spans are, if no
grammar has a blank or a line feed in its name. Two lists of spans have the
same report only if they are equal, and the lines of a report that is not
empty are the written forms of its spans, one for each. -/
theorem simple_report_lossless :
    (∀ spans others : List Span, (∀ s ∈ spans, s.PlainlyNamed) → (∀ s ∈ others, s.PlainlyNamed) →
      (simple.render spans = simple.render others ↔ spans = others)) ∧
    ∀ spans : List Span, (∀ s ∈ spans, s.PlainlyNamed) → spans ≠ [] →
      (simple.render spans).toList.splitOn '\n' = spans.map fun s => (simpleSpan s).toList := by
  refine ⟨?_, fun spans h hne => lines_render h hne⟩
  intro spans others hspans hothers
  constructor
  · intro h
    have hread := readSimple?_render hspans
    rw [h, readSimple?_render hothers] at hread
    exact (Option.some.inj hread).symm
  · rintro rfl
    rfl

/-- A span whose text looks like the end of one span and the start of another. -/
def lookalike : Span := ⟨0, 0, 27, "a\x22\n1:1-2 html - \x22\u0301\\u\x7b301\x7d", none, "html"⟩

/-- It is not taken for two spans, and is one line of a report. -/
theorem simple_report_lossless_of_lookalike :
    (∀ s ∈ [lookalike, ⟨1, 0, 0, "", some .tag, ""⟩], s.PlainlyNamed) ∧
      (∀ s ∈ [⟨0, 0, 1, "a", none, "html"⟩, ⟨0, 1, 2, "", none, "html"⟩], Span.PlainlyNamed s) ∧
      simple.render [lookalike, ⟨1, 0, 0, "", some .tag, ""⟩] ≠
        simple.render [⟨0, 0, 1, "a", none, "html"⟩, ⟨0, 1, 2, "", none, "html"⟩] ∧
      ((simple.render [lookalike, ⟨1, 0, 0, "", some .tag, ""⟩]).toList.splitOn '\n').length =
        2 := by
  have h : ∀ s ∈ [lookalike, ⟨1, 0, 0, "", some .tag, ""⟩], s.PlainlyNamed := by
    simp [Span.PlainlyNamed, lookalike]
  have h' : ∀ s ∈ [⟨0, 0, 1, "a", none, "html"⟩, ⟨0, 1, 2, "", none, "html"⟩],
      Span.PlainlyNamed s := by
    simp [Span.PlainlyNamed]
  refine ⟨h, h', ?_, ?_⟩
  · rw [ne_eq, simple_report_lossless.1 _ _ h h']
    simp [lookalike]
  · rw [simple_report_lossless.2 _ h (by simp)]
    rfl

end Report

end MixedMarkup
