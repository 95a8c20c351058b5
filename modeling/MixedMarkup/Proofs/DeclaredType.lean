import MixedMarkup.Mixed.ScriptType
import MixedMarkup.Proofs.ClosingTag
import Mathlib.Data.Nat.Find
import Mathlib.Order.Bounds.Defs
/-!
# Mixed documents — which type a line declares

A type is declared where the word `type` stands in any case, an equals sign,
with blanks around it or not, and a quote, if there is a character behind the
quote and a quote of either kind behind that. The search takes the first such
place (`typeOnLine?_of_first`), and its value goes on to the last quote of the
line, whatever stands between the two (`declared_type`). So a value that is
empty borrows from the attributes behind it, and an attribute without quotes
hides no later one.
-/

namespace MixedMarkup

open Text

namespace Mixed

/-! ## What declares a type -/

/-- The texts that open the value of a `type` attribute: a spelling of the
word, blanks, `=`, blanks, and a quote. -/
def IsTypeOpening (opening : List Char) : Prop :=
  ∃ spelling gap gap' quote, opening = spelling ++ (gap ++ '=' :: (gap' ++ [quote])) ∧
    spelling.map foldCase = "type".toList ∧ (∀ c ∈ gap, isBlank c = true) ∧
    (∀ c ∈ gap', isBlank c = true) ∧ isQuote quote = true

/-- At the byte offset `k` of a line stand the opening of a value, at least one
character, and behind it some quote. -/
def DeclaresTypeAt (line : List Char) (k : Nat) : Prop :=
  ∃ before opening c inside quote after,
    line = before ++ (opening ++ c :: (inside ++ quote :: after)) ∧ byteSize before = k ∧
      IsTypeOpening opening ∧ isQuote quote = true

/-- At the byte offset `k` of a line stands the opening of a value, and `value`
is the text from there to the last quote of the line. -/
def ReadsTypeAt (line : List Char) (k : Nat) (value : List Char) : Prop :=
  ∃ before opening quote after,
    line = before ++ (opening ++ (value ++ quote :: after)) ∧ byteSize before = k ∧
      IsTypeOpening opening ∧ isQuote quote = true ∧ ∀ c ∈ after, isQuote c = false

variable {text line value opening inside : List Char}

/-! ## The value -/

/-- A text without quotes has no last one. -/
theorem beforeLastQuote?_eq_none_iff :
    beforeLastQuote? text = none ↔ ∀ c ∈ text, isQuote c = false := by
  induction text with
  | nil => simp [beforeLastQuote?]
  | cons c text ih =>
    rw [List.forall_mem_cons, ← ih, beforeLastQuote?]
    cases hlast : beforeLastQuote? text with
    | some value => simp
    | none => cases hc : isQuote c <;> simp

/-- **The last quote** is the one that no quote follows. -/
theorem beforeLastQuote?_eq_some_iff :
    beforeLastQuote? text = some value ↔
      ∃ quote after, text = value ++ quote :: after ∧ isQuote quote = true ∧
        ∀ c ∈ after, isQuote c = false := by
  induction text generalizing value with
  | nil => simp [beforeLastQuote?]
  | cons c text ih =>
    rw [beforeLastQuote?]
    constructor
    · intro h
      cases hlast : beforeLastQuote? text with
      | some tail =>
        obtain rfl : c :: tail = value := by simpa [hlast] using h
        obtain ⟨quote, after, rfl, hquote, hafter⟩ := ih.mp hlast
        exact ⟨quote, after, rfl, hquote, hafter⟩
      | none =>
        have hafter := beforeLastQuote?_eq_none_iff.mp hlast
        simp only [hlast] at h
        split at h
        · rename_i hc
          obtain rfl : [] = value := by simpa using h
          exact ⟨c, text, rfl, hc, hafter⟩
        · simp at h
    · rintro ⟨quote, after, htext, hquote, hafter⟩
      cases value with
      | nil =>
        obtain ⟨rfl, rfl⟩ := List.cons.inj htext
        rw [beforeLastQuote?_eq_none_iff.mpr hafter]
        exact if_pos hquote
      | cons v value =>
        obtain ⟨rfl, htail⟩ := List.cons.inj htext
        rw [ih.mpr ⟨quote, after, htail, hquote, hafter⟩]

/-- On a line without feeds a value is what stands before the last quote, if
that is anything. -/
theorem valueAfterQuote?_eq_some_iff (htext : '\n' ∉ text) :
    valueAfterQuote? text = some value ↔ value ≠ [] ∧ beforeLastQuote? text = some value := by
  have hline : text.takeWhile (· != '\n') = text := by
    rw [List.takeWhile_eq_self_iff]
    intro c hc
    simpa using fun hfeed : c = '\n' => htext (hfeed ▸ hc)
  rw [valueAfterQuote?, hline]
  cases hlast : beforeLastQuote? text with
  | none => simp
  | some last =>
    cases last with
    | nil => simp +contextual
    | cons c last => simp +contextual [eq_comm]

/-- There is a value if some quote stands behind the first character. -/
theorem valueAfterQuote?_isSome_iff (htext : '\n' ∉ text) :
    (valueAfterQuote? text).isSome ↔
      ∃ c inside quote after, text = c :: (inside ++ quote :: after) ∧ isQuote quote = true := by
  rw [Option.isSome_iff_exists]
  simp only [valueAfterQuote?_eq_some_iff htext]
  constructor
  · rintro ⟨value, hne, hlast⟩
    obtain ⟨quote, after, rfl, hquote, -⟩ := beforeLastQuote?_eq_some_iff.mp hlast
    obtain ⟨c, inside, rfl⟩ := List.exists_cons_of_ne_nil hne
    exact ⟨c, inside, quote, after, rfl, hquote⟩
  · rintro ⟨c, inside, quote, after, rfl, hquote⟩
    -- the last quote is this one or stands behind it, and so behind the first character
    cases hlast : beforeLastQuote? (inside ++ quote :: after) with
    | none =>
      have hnone := beforeLastQuote?_eq_none_iff.mp hlast quote (by simp)
      simp [hquote] at hnone
    | some value => exact ⟨c :: value, by simp, by rw [beforeLastQuote?, hlast]⟩

/-! ## The attribute -/

/-- The attribute is found where its opening stands, and its value is read from
there. -/
theorem typeAt?_append (h : IsTypeOpening opening) (inside : List Char) :
    typeAt? (opening ++ inside) = valueAfterQuote? inside := by
  obtain ⟨spelling, gap, gap', quote, rfl, hspelling, hgap, hgap', hquote⟩ := h
  have hword : dropAnyCase? "type".toList
      (spelling ++ (gap ++ '=' :: (gap' ++ [quote])) ++ inside) =
        some (gap ++ '=' :: (gap' ++ quote :: inside)) :=
    dropAnyCase?_eq_some.mpr ⟨spelling, by simp, hspelling⟩
  have hequals : dropBlanks (gap ++ '=' :: (gap' ++ quote :: inside)) =
      '=' :: (gap' ++ quote :: inside) := by
    rw [dropBlanks_append hgap]
    exact dropBlanks_of_head (by decide)
  have hblank : isBlank quote = false := by
    simp only [isQuote, Bool.or_eq_true, beq_iff_eq] at hquote
    rcases hquote with rfl | rfl <;> decide
  have hmark : dropBlanks (gap' ++ quote :: inside) = quote :: inside := by
    rw [dropBlanks_append hgap']
    exact dropBlanks_of_head hblank
  rw [typeAt?, hword]
  simp only [Option.bind_eq_bind, Option.bind_some, hequals, hmark, if_pos hquote]

/-- And nowhere else. -/
theorem exists_opening_of_typeAt? (h : (typeAt? text).isSome) :
    ∃ opening inside, text = opening ++ inside ∧ IsTypeOpening opening := by
  rw [typeAt?] at h
  cases hword : dropAnyCase? "type".toList text with
  | none =>
    rw [hword] at h
    simp at h
  | some left =>
    rw [hword] at h
    simp only [Option.bind_eq_bind, Option.bind_some] at h
    split at h
    · rename_i behind hequals
      split at h
      · rename_i quote inside hmark
        split at h
        · rename_i hquote
          obtain ⟨spelling, rfl, hspelling⟩ := dropAnyCase?_eq_some.mp hword
          obtain ⟨gap, hgap, hleft⟩ := exists_dropBlanks left
          obtain ⟨gap', hgap', hbehind⟩ := exists_dropBlanks behind
          refine ⟨spelling ++ (gap ++ '=' :: (gap' ++ [quote])), inside, ?_,
            spelling, gap, gap', quote, rfl, hspelling, hgap, hgap', hquote⟩
          rw [hleft, hequals, hbehind, hmark]
          simp
        · simp at h
      · simp at h
    · simp at h

/-- A type is declared where the attribute has a value. -/
theorem declaresTypeAt_iff (hline : '\n' ∉ line) {k : Nat} :
    DeclaresTypeAt line k ↔
      ∃ before text, line = before ++ text ∧ byteSize before = k ∧ (typeAt? text).isSome := by
  constructor
  · rintro ⟨before, opening, c, inside, quote, after, rfl, rfl, hopening, hquote⟩
    refine ⟨before, _, rfl, rfl, ?_⟩
    rw [typeAt?_append hopening, valueAfterQuote?_isSome_iff]
    · exact ⟨c, inside, quote, after, rfl, hquote⟩
    · exact fun hfeed => hline (List.mem_append_right before (List.mem_append_right opening hfeed))
  · rintro ⟨before, text, rfl, rfl, hsome⟩
    obtain ⟨opening, left, rfl, hopening⟩ := exists_opening_of_typeAt? hsome
    rw [typeAt?_append hopening, valueAfterQuote?_isSome_iff] at hsome
    · obtain ⟨c, inside, quote, after, rfl, hquote⟩ := hsome
      exact ⟨before, opening, c, inside, quote, after, rfl, rfl, hopening, hquote⟩
    · exact fun hfeed => hline (by simp [hfeed])

/-! ## The search -/

/-- The search finds something if there is anything to find. -/
theorem typeOnLine?_isSome_iff :
    (typeOnLine? line).isSome ↔ ∃ before text, line = before ++ text ∧ (typeAt? text).isSome := by
  induction line with
  | nil =>
    simp only [typeOnLine?, Option.isSome_none, Bool.false_eq_true, false_iff]
    rintro ⟨before, text, hline, htext⟩
    obtain ⟨-, rfl⟩ := List.append_eq_nil_iff.mp hline.symm
    exact absurd htext (by decide)
  | cons c line ih =>
    rw [typeOnLine?, Option.orElse_eq_orElse, Option.orElse_eq_or, Option.isSome_or,
      Bool.or_eq_true, ih]
    constructor
    · rintro (hsome | ⟨before, text, rfl, hsome⟩)
      · exact ⟨[], c :: line, rfl, hsome⟩
      · exact ⟨c :: before, text, rfl, hsome⟩
    · rintro ⟨before, text, hline, hsome⟩
      cases before with
      | nil => exact .inl (by rwa [hline])
      | cons b before => exact .inr ⟨before, text, (List.cons.inj hline).2, hsome⟩

/-- **The search takes the first place** at which the attribute has a value. -/
theorem typeOnLine?_of_first {before : List Char} (htext : (typeAt? text).isSome)
    (hfirst : ∀ before' text', before ++ text = before' ++ text' → (typeAt? text').isSome →
      byteSize before ≤ byteSize before') :
    typeOnLine? (before ++ text) = typeAt? text := by
  induction before with
  | nil =>
    cases text with
    | nil => exact absurd htext (by decide)
    | cons c text =>
      rw [List.nil_append, typeOnLine?, Option.orElse_eq_orElse, Option.orElse_eq_or]
      exact Option.or_of_isSome htext
  | cons c before ih =>
    -- an attribute at the start would come before
    have hnone : typeAt? (c :: (before ++ text)) = none := by
      rw [← Option.not_isSome_iff_eq_none]
      intro hsome
      have hle := hfirst [] _ rfl hsome
      have hpos := c.utf8Size_pos
      simp only [byteSize_cons, byteSize_nil] at hle
      omega
    rw [List.cons_append, typeOnLine?, hnone]
    refine ih fun before' text' heq hsome => ?_
    have hle := hfirst (c :: before') text' (by rw [List.cons_append, heq]; rfl) hsome
    simpa using hle

/-- **At the least offset** at which a type is declared the search reads its
value up to the last quote of the line. -/
theorem typeOnLine?_eq_some_iff_of_isLeast (hline : '\n' ∉ line) {k : Nat}
    (hk : IsLeast {k | DeclaresTypeAt line k} k) :
    typeOnLine? line = some value ↔ ReadsTypeAt line k value := by
  obtain ⟨before, text, rfl, rfl, htext⟩ := (declaresTypeAt_iff hline).mp hk.1
  have hfeed : '\n' ∉ text := fun h => hline (List.mem_append_right before h)
  rw [typeOnLine?_of_first htext fun before' text' heq hsome =>
    hk.2 ((declaresTypeAt_iff hline).mpr ⟨before', text', heq, rfl, hsome⟩)]
  constructor
  · intro hvalue
    obtain ⟨opening, inside, rfl, hopening⟩ := exists_opening_of_typeAt? htext
    rw [typeAt?_append hopening,
      valueAfterQuote?_eq_some_iff fun h => hfeed (List.mem_append_right opening h)] at hvalue
    obtain ⟨quote, after, rfl, hquote, hafter⟩ := beforeLastQuote?_eq_some_iff.mp hvalue.2
    exact ⟨before, opening, quote, after, rfl, rfl, hopening, hquote, hafter⟩
  · rintro ⟨before', opening, quote, after, heq, hsize, hopening, hquote, hafter⟩
    obtain ⟨rfl, rfl⟩ := append_inj_of_byteSize heq hsize.symm
    have hinside : '\n' ∉ value ++ quote :: after :=
      fun h => hfeed (List.mem_append_right opening h)
    have hlast : beforeLastQuote? (value ++ quote :: after) = some value :=
      beforeLastQuote?_eq_some_iff.mpr ⟨quote, after, rfl, hquote, hafter⟩
    rw [typeAt?_append hopening] at htext ⊢
    rw [valueAfterQuote?_eq_some_iff hinside]
    refine ⟨?_, hlast⟩
    -- with nothing before the last quote there would be no value at all
    obtain ⟨found, hfound⟩ := Option.isSome_iff_exists.mp htext
    obtain ⟨hne, hfound⟩ := (valueAfterQuote?_eq_some_iff hinside).mp hfound
    rw [hlast] at hfound
    rwa [Option.some.inj hfound]

/-- **The declared type.** On a line without feeds a type is found exactly if
there is an offset at which one is declared. It is found at the least such
offset, and it is the text between the quote that opens it and the last quote
of either kind on the line. -/
theorem declared_type (hline : '\n' ∉ line) :
    ((typeOnLine? line).isSome ↔ ∃ k, DeclaresTypeAt line k) ∧
      ∀ value, typeOnLine? line = some value ↔
        ∃ k, IsLeast {k | DeclaresTypeAt line k} k ∧ ReadsTypeAt line k value := by
  have hsome : (typeOnLine? line).isSome ↔ ∃ k, DeclaresTypeAt line k := by
    simp only [typeOnLine?_isSome_iff, declaresTypeAt_iff hline]
    constructor
    · rintro ⟨before, text, rfl, htext⟩
      exact ⟨_, before, text, rfl, rfl, htext⟩
    · rintro ⟨_, before, text, rfl, -, htext⟩
      exact ⟨before, text, rfl, htext⟩
  refine ⟨hsome, fun value => ⟨?_, ?_⟩⟩
  · intro hvalue
    classical
    have hexists : ∃ k, DeclaresTypeAt line k := hsome.mp (by rw [hvalue]; rfl)
    have hk : IsLeast {k | DeclaresTypeAt line k} (Nat.find hexists) :=
      ⟨Nat.find_spec hexists, fun k hk => Nat.find_min' hexists hk⟩
    exact ⟨_, hk, (typeOnLine?_eq_some_iff_of_isLeast hline hk).mp hvalue⟩
  · rintro ⟨k, hk, hvalue⟩
    exact (typeOnLine?_eq_some_iff_of_isLeast hline hk).mpr hvalue

/-- An attribute without quotes hides no later one, and an empty value borrows
the quotes of the attribute behind it. -/
theorem declared_type_borrowed :
    '\n' ∉ "<script type=b TYPE = \x22\x22 id='d'>".toList ∧
      ∃ k, IsLeast {k | DeclaresTypeAt "<script type=b TYPE = \x22\x22 id='d'>".toList k} k ∧
        ReadsTypeAt "<script type=b TYPE = \x22\x22 id='d'>".toList k "\x22 id='d".toList := by
  have hline : '\n' ∉ "<script type=b TYPE = \x22\x22 id='d'>".toList := by decide
  exact ⟨hline, ((declared_type hline).2 _).mp (by decide +kernel)⟩

end Mixed

end MixedMarkup
