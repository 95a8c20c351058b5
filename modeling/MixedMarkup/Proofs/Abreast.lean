import MixedMarkup.Proofs.Movement
import Mathlib.Data.List.TakeWhile
/-!
# The line cursor — two cursors abreast

Two cursors on different lines are abreast when they have read the same
token and the same text lies ahead of them, up to a stop: the ends of both
lines, or a `>` on both. What comes behind the stop may differ. A reading
operation that stays before the stop cannot tell the two apart, though
some of them look further ahead than they read: a run of characters ends
at the stop or before it (`takeWhile_of_sameStop`), a mark that is found
is found in the common text (`Scan.through_of_sameStop`), and a literal
without a `>` is decided there (`isPrefixOf_of_sameStop`). An operation
that reads no `>` stays before the stop by itself.
-/

namespace MixedMarkup

/-! ## Texts with a common start -/

namespace Text

/-- Two texts stop in the same way: both are at their end, or both go on
with a `>`. -/
def SameStop (x y : List Char) : Prop :=
  x = [] ∧ y = [] ∨ ∃ x' y', x = '>' :: x' ∧ y = '>' :: y'

variable {x y u : List Char}

theorem SameStop.head?_append (h : SameStop x y) (u : List Char) :
    (u ++ y).head? = (u ++ x).head? := by
  cases u with
  | cons c u => rfl
  | nil =>
    rcases h with ⟨rfl, rfl⟩ | ⟨x', y', rfl, rfl⟩
    · rfl
    · rfl

/-- **A run that ends in the common text** ends at the same place. -/
theorem takeWhile_of_sameStop {p : Char → Bool} (h : SameStop x y)
    (hlen : ((u ++ x).takeWhile p).length ≤ u.length) :
    (u ++ y).takeWhile p = (u ++ x).takeWhile p := by
  rcases h with ⟨rfl, rfl⟩ | ⟨x', y', rfl, rfl⟩
  · rfl
  · induction u with
    | nil =>
      have hstop : ('>' :: x').takeWhile p = [] := List.length_eq_zero_iff.mp (by simpa using hlen)
      cases hp : p '>' with
      | true => simp [hp] at hstop
      | false => simp [hp]
    | cons c u ih =>
      cases hc : p c with
      | false => simp [hc]
      | true =>
        simp only [List.cons_append, List.takeWhile_cons, hc, if_true, List.length_cons] at hlen ⊢
        rw [ih (by omega)]

/-- A run that a `>` ends ends in the common text. -/
theorem length_takeWhile_le {p : Char → Bool} (h : SameStop x y) (hp : p '>' = false) :
    ((u ++ x).takeWhile p).length ≤ u.length := by
  induction u with
  | nil =>
    rcases h with ⟨rfl, rfl⟩ | ⟨x', y', rfl, rfl⟩
    · simp
    · simp [hp]
  | cons c u ih =>
    cases hc : p c with
    | false => simp [hc]
    | true =>
      simp only [List.cons_append, List.takeWhile_cons, hc, if_true, List.length_cons]
      omega

/-- **A literal without a `>`** stands at the start of both texts or of
neither. -/
theorem isPrefixOf_of_sameStop {literal : List Char} (h : SameStop x y) (hlit : '>' ∉ literal) :
    literal.isPrefixOf (u ++ y) = literal.isPrefixOf (u ++ x) := by
  rcases h with ⟨rfl, rfl⟩ | ⟨x', y', rfl, rfl⟩
  · rfl
  · induction u generalizing literal with
    | nil =>
      cases literal with
      | nil => simp
      | cons l literal =>
        have hl : (l == '>') = false := by
          rw [beq_eq_false_iff_ne]
          exact fun heq => hlit (by simp [heq])
        simp [List.isPrefixOf, hl]
    | cons c u ih =>
      cases literal with
      | nil => simp
      | cons l literal =>
        simp only [List.cons_append, List.isPrefixOf]
        rw [ih fun hmem => hlit (List.mem_cons_of_mem l hmem)]

theorem length_le_of_isPrefixOf {literal text : List Char} (h : literal.isPrefixOf text = true) :
    literal.length ≤ text.length :=
  (List.isPrefixOf_iff_prefix.mp h).length_le

/-- And it stands in the common text. -/
theorem length_le_of_sameStop {literal : List Char} (h : SameStop x y) (hlit : '>' ∉ literal)
    (hpre : literal.isPrefixOf (u ++ x) = true) : literal.length ≤ u.length := by
  rcases h with ⟨rfl, rfl⟩ | ⟨x', y', rfl, rfl⟩
  · simpa using length_le_of_isPrefixOf hpre
  · by_contra hlong
    -- a longer literal would go over the `>`
    obtain ⟨after, hafter⟩ := List.isPrefixOf_iff_prefix.mp hpre
    rcases List.append_eq_append_iff.mp hafter with ⟨v, rfl, -⟩ | ⟨v, rfl, hv⟩
    · simp at hlong
    · cases v with
      | nil => simp at hlong
      | cons a v =>
        obtain ⟨rfl, -⟩ := List.cons.inj hv
        exact hlit (by simp)

theorem map_toLower_sameStop (h : SameStop x y) :
    SameStop (x.map Char.toLower) (y.map Char.toLower) := by
  rcases h with ⟨rfl, rfl⟩ | ⟨x', y', rfl, rfl⟩
  · exact .inl ⟨rfl, rfl⟩
  · exact .inr ⟨x'.map Char.toLower, y'.map Char.toLower, rfl, rfl⟩

end Text

open Text

/-! ## Scans of a text that goes on -/

namespace Scan

variable {mark text u x y : List Char}

theorem through_width_le : (through mark text).width ≤ text.length := by
  induction text with
  | nil => exact Nat.le_refl 0
  | cons c cs ih =>
    rw [through]
    split
    · rename_i h
      exact length_le_of_isPrefixOf h
    · simpa [after] using ih

theorem mark_le_of_closed (h : (through mark text).closed = true) :
    mark.length ≤ (through mark text).width := by
  induction text with
  | nil => simp [through] at h
  | cons c cs ih =>
    rw [through] at h ⊢
    split
    · exact Nat.le_refl _
    · rename_i hmark
      rw [if_neg hmark] at h
      have := ih h
      simp only [after]
      omega

/-- A mark that is not found leaves nothing out. -/
theorem through_width_of_open (h : (through mark text).closed = false) :
    (through mark text).width = text.length := by
  induction text with
  | nil => rfl
  | cons c cs ih =>
    rw [through] at h ⊢
    split
    · rename_i hmark
      rw [if_pos hmark] at h
      simp at h
    · rename_i hmark
      rw [if_neg hmark] at h
      simp [after, ih h]

/-- **A mark found in a text is found at the same place whatever
follows.** -/
theorem through_append (h : (through mark u).closed = true) (x : List Char) :
    through mark (u ++ x) = through mark u := by
  induction u with
  | nil => simp [through] at h
  | cons c u ih =>
    rw [through] at h
    rw [List.cons_append, through, through]
    by_cases hmark : mark.isPrefixOf (c :: u) = true
    · have hlonger : mark.isPrefixOf (c :: (u ++ x)) = true := by
        rw [List.isPrefixOf_iff_prefix] at hmark ⊢
        exact hmark.trans (List.prefix_append (c :: u) x)
      rw [if_pos hmark, if_pos hlonger]
    · rw [if_neg hmark] at h
      -- the mark fits into what is left, so it would stand in the first text already
      have hshort : mark.length ≤ (c :: u).length := by
        have hfits : mark.length ≤ (through mark u).width := mark_le_of_closed h
        have hwidth : (through mark u).width ≤ u.length := through_width_le
        simp only [List.length_cons]
        omega
      have hlonger : ¬ mark.isPrefixOf (c :: (u ++ x)) = true := by
        rw [List.isPrefixOf_iff_prefix] at hmark ⊢
        intro hpre
        exact hmark (List.prefix_of_prefix_length_le hpre (List.prefix_append (c :: u) x) hshort)
      rw [if_neg hmark, if_neg hlonger, ih h]

/-- And a mark found before the end of a text is found in it alone. -/
theorem closed_of_width_le (hmark : mark ≠ []) (h : (through mark (u ++ x)).closed = true)
    (hlen : (through mark (u ++ x)).width ≤ u.length) : (through mark u).closed = true := by
  have hpos : 0 < mark.length := List.length_pos_iff.mpr hmark
  induction u with
  | nil =>
    have := mark_le_of_closed h
    simp only [List.length_nil] at hlen
    omega
  | cons c u ih =>
    rw [List.cons_append, through] at h hlen
    rw [through]
    by_cases hstarts : mark.isPrefixOf (c :: (u ++ x)) = true
    · rw [if_pos hstarts] at hlen
      have hstarts' : mark.isPrefixOf (c :: u) = true := by
        rw [List.isPrefixOf_iff_prefix] at hstarts ⊢
        exact List.prefix_of_prefix_length_le hstarts (List.prefix_append (c :: u) x) hlen
      rw [if_pos hstarts']
    · rw [if_neg hstarts] at h hlen
      have hclosed := ih h (by simpa [after] using hlen)
      split
      · rfl
      · exact hclosed

/-- **A scan that stays in the common text** ends at the same place. -/
theorem through_of_sameStop (hmark : mark ≠ []) (h : SameStop x y)
    (hlen : (through mark (u ++ x)).width ≤ u.length) :
    through mark (u ++ y) = through mark (u ++ x) := by
  rcases h with ⟨rfl, rfl⟩ | ⟨x', y', rfl, rfl⟩
  · rfl
  · cases hclosed : (through mark (u ++ '>' :: x')).closed with
    | true =>
      have hu := closed_of_width_le hmark hclosed hlen
      rw [through_append hu, through_append hu]
    | false =>
      rw [through_width_of_open hclosed, List.length_append, List.length_cons] at hlen
      omega

end Scan

/-! ## Cursors -/

namespace Cursor

variable {x y : List Char} {c d : Cursor}

/-- `c` and `d` have read the same token, and the same text is ahead of
them, before `x` and before `y`. -/
structure Abreast (x y : List Char) (c d : Cursor) : Prop where
  token : d.token = c.token
  ahead : ∃ u, c.rest = u ++ x ∧ d.rest = u ++ y

/-- The cursor has not passed the start of `x`. -/
def StaysBefore (x : List Char) (c : Cursor) : Prop := x.length ≤ c.rest.length

/-- What comes later on a line stays behind what comes earlier. -/
theorem StaysBefore.of_reaches {e : Cursor} (h : c.Reaches e) (he : e.StaysBefore x) :
    c.StaysBefore x := by
  obtain ⟨text, htook⟩ := h
  have := htook.length
  simp only [StaysBefore] at he ⊢
  omega

/-- Two cursors answer alike: neither moves, or both do and are abreast. -/
def AbreastIf (x y : List Char) (moved moved' : Option Cursor) : Prop :=
  moved = none ∧ moved' = none ∨ ∃ c d, moved = some c ∧ moved' = some d ∧ c.Abreast x y d

theorem Abreast.refl (h : d.token = c.token) (hrest : d.rest = c.rest) : c.Abreast [] [] d :=
  ⟨h, c.rest, by simp, by simp [hrest]⟩

theorem one_le_of_peek? {ch : Char} (h : c.peek? = some ch) : 1 ≤ c.rest.length := by
  cases hrest : c.rest with
  | nil => simp [Cursor.peek?, hrest] at h
  | cons _ _ => simp

section Reading

variable (hs : SameStop x y) (h : c.Abreast x y d)
include hs h

theorem Abreast.peek? : d.peek? = c.peek? := by
  obtain ⟨u, hc, hd⟩ := h.ahead
  rw [Cursor.peek?, Cursor.peek?, hc, hd, hs.head?_append]

omit hs in
/-- Cursors abreast stay so over as many characters of the common text. -/
theorem Abreast.read {n : Nat} (hn : n ≤ c.rest.length) (hstay : (c.read n).StaysBefore x) :
    (c.read n).Abreast x y (d.read n) := by
  obtain ⟨u, hc, hd⟩ := h.ahead
  have hnu : n ≤ u.length := by
    simp only [StaysBefore, Cursor.read, hc, List.length_drop, List.length_append] at hstay hn
    omega
  refine ⟨?_, u.drop n, ?_, ?_⟩
  · simp only [Cursor.read, h.token, hc, hd, List.take_append_of_le_length hnu]
  · simp only [Cursor.read, hc, List.drop_append_of_le_length hnu]
  · simp only [Cursor.read, hd, List.drop_append_of_le_length hnu]

/-- Both are at the end of their lines, or both read the same
character. -/
theorem Abreast.next? :
    c.next? = none ∧ d.next? = none ∨
      ∃ ch, c.next? = some (ch, c.read 1) ∧ d.next? = some (ch, d.read 1) ∧
        ((c.read 1).StaysBefore x → (c.read 1).Abreast x y (d.read 1)) := by
  simp only [Cursor.next?, h.peek? hs]
  cases hpeek : c.peek? with
  | none => exact .inl ⟨rfl, rfl⟩
  | some ch => exact .inr ⟨ch, rfl, rfl, h.read (one_le_of_peek? hpeek)⟩

/-- A character other than `>` is read from the common text. -/
theorem Abreast.readChar? (ch : Char) (hch : ch ≠ '>') :
    AbreastIf x y (c.readChar? ch) (d.readChar? ch) := by
  simp only [Cursor.readChar?, readIf?, h.peek? hs]
  cases hpeek : c.peek? with
  | none => exact .inl ⟨rfl, rfl⟩
  | some a =>
    by_cases ha : a = ch
    · have hstay : (c.read 1).StaysBefore x := by
        obtain ⟨u, hc, -⟩ := h.ahead
        rw [Cursor.peek?, hc, ha] at hpeek
        rw [StaysBefore, Cursor.read, hc]
        cases u with
        | cons b u => simp
        | nil =>
          rcases hs with ⟨rfl, -⟩ | ⟨x', y', rfl, -⟩
          · simp at hpeek
          · exact absurd (Option.some.inj hpeek).symm hch
      refine .inr ⟨c.read 1, d.read 1, ?_, ?_, h.read (one_le_of_peek? hpeek) hstay⟩
      · simp [ha]
      · simp [ha]
    · exact .inl ⟨by simp [ha], by simp [ha]⟩

/-- **Skipping** stays abreast before the stop. -/
theorem Abreast.skip {p : Char → Bool} (hstay : (c.skip p).StaysBefore x) :
    (c.skip p).Abreast x y (d.skip p) := by
  obtain ⟨u, hc, hd⟩ := h.ahead
  have hlen : ((u ++ x).takeWhile p).length ≤ u.length := by
    have hle := (List.takeWhile_prefix p (l := u ++ x)).length_le
    simp only [StaysBefore, Cursor.skip, Cursor.read, hc, List.length_drop,
      List.length_append] at hstay hle ⊢
    omega
  have hsame : (d.rest.takeWhile p).length = (c.rest.takeWhile p).length := by
    rw [hc, hd, takeWhile_of_sameStop hs hlen]
  rw [Cursor.skip, Cursor.skip, hsame]
  exact h.read ((List.takeWhile_prefix p).length_le) hstay

/-- And a run that a `>` ends stays before it. -/
theorem Abreast.staysBefore_skip {p : Char → Bool} (hp : p '>' = false) :
    (c.skip p).StaysBefore x := by
  obtain ⟨u, hc, -⟩ := h.ahead
  have hlen := length_takeWhile_le (u := u) hs hp
  simp only [StaysBefore, Cursor.skip, Cursor.read, hc, List.length_drop, List.length_append]
  omega

theorem Abreast.readWhile? (p : Char → Bool) (hp : p '>' = false) :
    AbreastIf x y (c.readWhile? p) (d.readWhile? p) := by
  simp only [Cursor.readWhile?, readIf?, h.peek? hs]
  cases c.peek? with
  | none => exact .inl ⟨rfl, rfl⟩
  | some a =>
    cases ha : p a with
    | false => exact .inl ⟨by simp [ha], by simp [ha]⟩
    | true =>
      refine .inr ⟨c.skip p, d.skip p, ?_, ?_, h.skip hs (h.staysBefore_skip hs hp)⟩
      · simp [ha]
      · simp [ha]

theorem Abreast.readLiteral? (literal : List Char) (hlit : '>' ∉ literal) :
    AbreastIf x y (c.readLiteral? literal) (d.readLiteral? literal) := by
  obtain ⟨u, hc, hd⟩ := h.ahead
  have hsame : literal.isPrefixOf d.rest = literal.isPrefixOf c.rest := by
    rw [hc, hd, isPrefixOf_of_sameStop hs hlit]
  simp only [Cursor.readLiteral?, hsame]
  split
  · rename_i hpre
    refine .inr ⟨_, _, rfl, rfl, h.read (length_le_of_isPrefixOf hpre) ?_⟩
    have := length_le_of_sameStop hs hlit (hc ▸ hpre)
    simp only [StaysBefore, Cursor.read, hc, List.length_drop, List.length_append]
    omega
  · exact .inl ⟨rfl, rfl⟩

theorem Abreast.readLiteralAnyCase? (literal : List Char)
    (hlit : '>' ∉ literal.map Char.toLower) :
    AbreastIf x y (c.readLiteralAnyCase? literal) (d.readLiteralAnyCase? literal) := by
  obtain ⟨u, hc, hd⟩ := h.ahead
  have hs' := map_toLower_sameStop hs
  have hsame : (literal.map Char.toLower).isPrefixOf (d.rest.map Char.toLower) =
      (literal.map Char.toLower).isPrefixOf (c.rest.map Char.toLower) := by
    rw [hc, hd, List.map_append, List.map_append, isPrefixOf_of_sameStop hs' hlit]
  simp only [Cursor.readLiteralAnyCase?, hsame]
  split
  · rename_i hpre
    have hlen := length_le_of_isPrefixOf hpre
    rw [hc, List.map_append] at hpre
    have := length_le_of_sameStop hs' hlit hpre
    rw [List.length_map, List.length_map] at hlen this
    refine .inr ⟨_, _, rfl, rfl, h.read hlen ?_⟩
    simp only [StaysBefore, Cursor.read, hc, List.length_drop, List.length_append]
    omega
  · exact .inl ⟨rfl, rfl⟩

omit hs in
/-- Cursors abreast give back the same part of their token. -/
theorem Abreast.unread (n : Nat) : (c.unread n).Abreast x y (d.unread n) := by
  obtain ⟨u, hc, hd⟩ := h.ahead
  refine ⟨?_, (splitBytes (byteSize c.token - n) c.token).2 ++ u, ?_, ?_⟩
  · simp only [Cursor.unread, h.token]
  · simp only [Cursor.unread, hc, List.append_assoc]
  · simp only [Cursor.unread, h.token, hd, List.append_assoc]

/-- **Reading through a mark** stays abreast before the stop, and finds
the mark on both lines or on neither. -/
theorem Abreast.through {mark : List Char} (hmark : mark ≠ [])
    (hstay : (c.read (Scan.through mark c.rest).width).StaysBefore x) :
    Scan.through mark d.rest = Scan.through mark c.rest ∧
      (c.read (Scan.through mark c.rest).width).Abreast x y
        (d.read (Scan.through mark c.rest).width) := by
  obtain ⟨u, hc, hd⟩ := h.ahead
  have hwidth : (Scan.through mark c.rest).width ≤ c.rest.length := Scan.through_width_le
  refine ⟨?_, h.read hwidth hstay⟩
  rw [hc, hd]
  apply Scan.through_of_sameStop hmark hs
  simp only [StaysBefore, Cursor.read, hc, List.length_drop, List.length_append] at hstay hwidth
  omega

end Reading

end Cursor

end MixedMarkup
