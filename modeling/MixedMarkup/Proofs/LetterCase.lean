import MixedMarkup.Markup.Lexeme
import MixedMarkup.Text.CaseFolding
import MixedMarkup.Text.Numeric
import MixedMarkup.Text.Word
/-!
# Text — capitals and small letters

Putting a text in lower case changes the 26 capitals of ASCII and nothing
else, so what takes each of them for its small letter takes a text for its
lower case form (`apply_toLower`). The classes of characters that markup and
patterns are made of are instances, and so is a character that is no letter
(`beq_toLower`). What is read of a text by such classes is read of its lower
case form at the same places.
-/

namespace MixedMarkup

namespace Text

/-- What is said of the characters of a text is decided on those alone. -/
instance decidableForallMem (text : List Char) (p : Char → Prop) [DecidablePred p] :
    Decidable (∀ x ∈ text, p x) :=
  List.decidableBAll p text

theorem toLower_of_not_capital {c : Char} (h : ¬ (65 ≤ c.toNat ∧ c.toNat ≤ 90)) :
    c.toLower = c := by
  unfold Char.toLower
  rw [dif_neg]
  rintro ⟨hA, hZ⟩
  exact h ⟨hA, hZ⟩

/-- **What does not tell a capital from its small letter** does not tell a
character from its lower case. -/
theorem apply_toLower {α : Type} {f : Char → α}
    (h : ∀ n ∈ List.range' 65 26, f (Char.ofNat (n + 32)) = f (Char.ofNat n)) (c : Char) :
    f c.toLower = f c := by
  by_cases hcapital : 65 ≤ c.toNat ∧ c.toNat ≤ 90
  · have hmem : c.toNat ∈ List.range' 65 26 := by
      rw [List.mem_range'_1]
      omega
    have hsmall : ∀ n ∈ List.range' 65 26, (Char.ofNat n).toLower = Char.ofNat (n + 32) := by
      decide
    have hc := hsmall c.toNat hmem
    rw [Char.ofNat_toNat] at hc
    rw [hc, h c.toNat hmem, Char.ofNat_toNat]
  · rw [toLower_of_not_capital hcapital]

/-- A class of characters that does not tell capitals from small letters. -/
def CaseBlind (p : Char → Bool) : Prop := ∀ c, p c.toLower = p c

theorem isBlank_toLower : CaseBlind isBlank := apply_toLower (by decide)

theorem foldCase_toLower (c : Char) : foldCase c.toLower = foldCase c :=
  apply_toLower (by decide) c

theorem isWord_toLower : CaseBlind isWord := apply_toLower (by decide)

theorem isDecimal_toLower : CaseBlind isDecimal := apply_toLower (by decide)

theorem utf8Size_toLower (c : Char) : c.toLower.utf8Size = c.utf8Size :=
  apply_toLower (f := Char.utf8Size) (by decide) c

/-- **A character that is no letter** stays what it is, and no other comes to
be it. -/
theorem beq_toLower {mark : Char} (h : mark.isAlpha = false) : CaseBlind (· == mark) := by
  have hletters : ∀ n ∈ List.range' 65 26,
      (Char.ofNat n).isAlpha = true ∧ (Char.ofNat (n + 32)).isAlpha = true := by
    decide
  refine apply_toLower (f := (· == mark)) fun n hn => ?_
  obtain ⟨hcapital, hsmall⟩ := hletters n hn
  have hne : ∀ c : Char, c.isAlpha = true → (c == mark) = false := by
    intro c hc
    rw [beq_eq_false_iff_ne]
    rintro rfl
    simp [h] at hc
  rw [hne _ hcapital, hne _ hsmall]

theorem toLower_eq_iff {mark : Char} (h : mark.isAlpha = false) {c : Char} :
    c.toLower = mark ↔ c = mark := by
  have hbeq : (c.toLower == mark) = (c == mark) := beq_toLower h c
  rw [← beq_iff_eq, hbeq, beq_iff_eq]

theorem CaseBlind.not {p : Char → Bool} (h : CaseBlind p) : CaseBlind (fun c => !p c) :=
  fun c => congrArg (!·) (h c)

theorem CaseBlind.and {p q : Char → Bool} (h : CaseBlind p) (h' : CaseBlind q) :
    CaseBlind (fun c => p c && q c) := fun c => by simp only [h c, h' c]

theorem CaseBlind.comp {p : Char → Bool} (h : CaseBlind p) : p ∘ Char.toLower = p := funext h

/-! ## Texts -/

variable {text : List Char}

theorem takeWhile_map_toLower {p : Char → Bool} (h : CaseBlind p) (text : List Char) :
    (text.map Char.toLower).takeWhile p = (text.takeWhile p).map Char.toLower := by
  rw [List.takeWhile_map, h.comp]

theorem dropBlanks_map_toLower (text : List Char) :
    dropBlanks (text.map Char.toLower) = (dropBlanks text).map Char.toLower := by
  rw [dropBlanks, dropBlanks, List.dropWhile_map, isBlank_toLower.comp]

/-- A text has as many bytes in lower case. -/
@[simp] theorem byteSize_map_toLower (text : List Char) :
    byteSize (text.map Char.toLower) = byteSize text := by
  induction text with
  | nil => rfl
  | cons c text ih => rw [List.map_cons, byteSize_cons, byteSize_cons, utf8Size_toLower, ih]

theorem splitBytes_map_toLower (n : Nat) (text : List Char) :
    splitBytes n (text.map Char.toLower) =
      ((splitBytes n text).1.map Char.toLower, (splitBytes n text).2.map Char.toLower) := by
  induction text generalizing n with
  | nil => rfl
  | cons c text ih =>
    simp only [List.map_cons, splitBytes, utf8Size_toLower, ih]
    split <;> rfl

/-- A tab is a tab and anything else is one column wide. -/
theorem columnWidth_map_toLower (tabSize : Nat) (text : List Char) :
    columnWidth tabSize (text.map Char.toLower) = columnWidth tabSize text := by
  have htab : CaseBlind (· == '\t') := beq_toLower (by decide)
  rw [columnWidth, columnWidth, List.foldl_map]
  congr 1
  funext column c
  simp only [columnAfter, htab c]

/-- **A literal without letters** starts a text and its lower case form
alike. -/
theorem isPrefixOf_map_toLower {literal : List Char} (h : ∀ x ∈ literal, x.isAlpha = false)
    (text : List Char) : literal.isPrefixOf (text.map Char.toLower) = literal.isPrefixOf text := by
  induction literal generalizing text with
  | nil => simp
  | cons x literal ih =>
    cases text with
    | nil => rfl
    | cons c text =>
      have hx : (x == c.toLower) = (x == c) := by
        rw [BEq.comm, BEq.comm (a := x)]
        exact beq_toLower (h x (by simp)) c
      rw [List.map_cons, List.isPrefixOf_cons_cons, List.isPrefixOf_cons_cons, hx,
        ih fun y hy => h y (by simp [hy])]

/-- What follows a literal in any case. -/
theorem dropAnyCase?_map_toLower (literal text : List Char) :
    dropAnyCase? literal (text.map Char.toLower) =
      (dropAnyCase? literal text).map (·.map Char.toLower) := by
  induction literal generalizing text with
  | nil => cases text <;> rfl
  | cons l literal ih =>
    cases text with
    | nil => rfl
    | cons c text =>
      simp only [List.map_cons, dropAnyCase?, foldCase_toLower, ih]
      split <;> rfl

end Text

open Text

/-- A lower case character stays as it is. -/
theorem toLower_toLower (c : Char) : c.toLower.toLower = c.toLower :=
  apply_toLower (f := Char.toLower) (by decide) c

theorem map_toLower_map_toLower (text : List Char) :
    (text.map Char.toLower).map Char.toLower = text.map Char.toLower := by
  rw [List.map_map]
  exact List.map_congr_left fun c _ => toLower_toLower c

namespace Markup

theorem isWordChar_toLower : CaseBlind isWordChar := apply_toLower (by decide)

theorem isEntityChar_toLower : CaseBlind isEntityChar := apply_toLower (by decide)

end Markup

end MixedMarkup
