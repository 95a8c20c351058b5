import MixedMarkup.Scan
import MixedMarkup.Tokenizer
/-!
# The line cursor — forward moves

A tokenizer moves its cursor forward over whole characters and leaves the
start of the token where it is. `Took` says so of two cursors and names
the text between them; every reading operation of the cursor is an
instance, and so is a move that gives back part of what it has read.
`Consumes` is what the line driver asks of a tokenizer: wherever there is
something left, a token has at least one character.
-/

namespace MixedMarkup

open Text

namespace Cursor

variable {c d e : Cursor} {text more : List Char}

/-- `d` stands where `c` does, with `text` read since. -/
structure Took (c : Cursor) (text : List Char) (d : Cursor) : Prop where
  before : d.before = c.before
  token : d.token = c.token ++ text
  rest : c.rest = text ++ d.rest
  tabSize : d.tabSize = c.tabSize

/-- `d` is `c` moved forward, or not at all. -/
def Reaches (c d : Cursor) : Prop := ∃ text, c.Took text d

/-- `d` is `c` moved forward by a character at least. -/
def Advances (c d : Cursor) : Prop := ∃ text, text ≠ [] ∧ c.Took text d

/-! ## Composition -/

theorem Took.refl (c : Cursor) : c.Took [] c := ⟨rfl, by simp, rfl, rfl⟩

theorem Took.trans (h : c.Took text d) (h' : d.Took more e) : c.Took (text ++ more) e where
  before := h'.before.trans h.before
  token := by rw [h'.token, h.token, List.append_assoc]
  rest := by rw [h.rest, h'.rest, List.append_assoc]
  tabSize := h'.tabSize.trans h.tabSize

theorem Reaches.refl (c : Cursor) : c.Reaches c := ⟨[], .refl c⟩

theorem Reaches.trans (h : c.Reaches d) (h' : d.Reaches e) : c.Reaches e := by
  obtain ⟨text, h⟩ := h
  obtain ⟨more, h'⟩ := h'
  exact ⟨text ++ more, h.trans h'⟩

theorem Advances.reaches (h : c.Advances d) : c.Reaches d := by
  obtain ⟨text, -, h⟩ := h
  exact ⟨text, h⟩

/-- A move by a character stays one when it is carried on. -/
theorem Advances.trans_reaches (h : c.Advances d) (h' : d.Reaches e) : c.Advances e := by
  obtain ⟨text, hne, h⟩ := h
  obtain ⟨more, h'⟩ := h'
  exact ⟨text ++ more, by simp [hne], h.trans h'⟩

/-! ## Where the cursor stands -/

/-- A forward move stays on the line. -/
theorem Took.line (h : c.Took text d) : d.line = c.line := by
  rw [Cursor.line, Cursor.line, h.before, h.token, h.rest]
  simp

/-- And shortens what is left by what it took. -/
theorem Took.length (h : c.Took text d) : c.rest.length = text.length + d.rest.length := by
  rw [h.rest, List.length_append]

/-- What is left is what stood behind the text. -/
theorem Took.rest_eq {left : List Char} (h : c.Took text d) (hrest : c.rest = text ++ left) :
    d.rest = left :=
  (List.append_cancel_left (hrest.symm.trans h.rest)).symm

theorem Advances.rest_lt (h : c.Advances d) : d.rest.length < c.rest.length := by
  obtain ⟨text, hne, h⟩ := h
  have hpos : 0 < text.length := List.length_pos_iff.mpr hne
  have hlen := h.length
  omega

theorem Advances.atEnd (h : c.Advances d) : c.atEnd = false := by
  have hlt := h.rest_lt
  cases hrest : c.rest with
  | nil => simp [hrest] at hlt
  | cons ch rest => simp [Cursor.atEnd, hrest]

theorem atEnd_iff : c.atEnd = true ↔ c.rest = [] := by
  simp [Cursor.atEnd]

@[simp] theorem token_beginToken (c : Cursor) : c.beginToken.token = [] := rfl

@[simp] theorem rest_beginToken (c : Cursor) : c.beginToken.rest = c.rest := rfl

@[simp] theorem tabSize_beginToken (c : Cursor) : c.beginToken.tabSize = c.tabSize := rfl

@[simp] theorem pos_beginToken (c : Cursor) : c.beginToken.pos = c.pos := by
  simp [pos, beginToken]

/-- A cursor is at the byte offset of the text that it has left behind. -/
theorem pos_eq (c : Cursor) : c.pos = byteSize (c.before ++ c.token) := by
  rw [pos, byteSize_append]

/-- **A new token starts at the same place for all cursors on a line with
the same text left.** How the line was cut before it leaves no trace. -/
theorem beginToken_eq_iff :
    c.beginToken = d.beginToken ↔ c.line = d.line ∧ c.rest = d.rest ∧ c.tabSize = d.tabSize := by
  constructor
  · intro h
    refine ⟨?_, ?_, ?_⟩
    · rw [← line_beginToken, h, line_beginToken]
    · rw [← rest_beginToken, h, rest_beginToken]
    · rw [← tabSize_beginToken, h, tabSize_beginToken]
  · rintro ⟨hline, hrest, htab⟩
    have hbefore : c.before ++ c.token = d.before ++ d.token := by
      rw [line, line, ← List.append_assoc, ← List.append_assoc, hrest] at hline
      exact List.append_cancel_right hline
    simp only [beginToken, hbefore, hrest, htab]

/-! ## The reading operations -/

/-- Reading `n` characters takes the first `n` of the rest. -/
theorem took_read (n : Nat) (c : Cursor) : c.Took (c.rest.take n) (c.read n) :=
  ⟨rfl, rfl, (List.take_append_drop n c.rest).symm, rfl⟩

theorem reaches_read (n : Nat) (c : Cursor) : c.Reaches (c.read n) := ⟨_, took_read n c⟩

/-- Reading moves the cursor where there is something to read. -/
theorem advances_read {n : Nat} (hn : 0 < n) (hc : c.rest ≠ []) : c.Advances (c.read n) := by
  refine ⟨c.rest.take n, ?_, took_read n c⟩
  intro hnil
  rw [List.take_eq_nil_iff] at hnil
  rcases hnil with h | h
  · omega
  · exact hc h

theorem advances_readAll (hc : c.rest ≠ []) : c.Advances c.readAll :=
  advances_read (List.length_pos_iff.mpr hc) hc

/-- Skipping takes the characters it skips. -/
theorem took_skip (p : Char → Bool) (c : Cursor) : c.Took (c.rest.takeWhile p) (c.skip p) := by
  have htake : c.rest.take (c.rest.takeWhile p).length = c.rest.takeWhile p :=
    (List.prefix_iff_eq_take.mp (List.takeWhile_prefix p)).symm
  have hread := took_read (c.rest.takeWhile p).length c
  rwa [htake] at hread

theorem reaches_skip (p : Char → Bool) (c : Cursor) : c.Reaches (c.skip p) := ⟨_, took_skip p c⟩

/-- Reading one character takes the character ahead. -/
theorem took_read_one {ch : Char} (h : c.peek? = some ch) : c.Took [ch] (c.read 1) := by
  have hread := took_read 1 c
  have htake : c.rest.take 1 = [ch] := by
    rw [List.take_one]
    change c.peek?.toList = [ch]
    rw [h]
    rfl
  rwa [htake] at hread

theorem readIf?_eq_some {p : Char → Bool} {ch : Char} (h : c.readIf? p = some (ch, d)) :
    c.peek? = some ch ∧ p ch = true ∧ d = c.read 1 := by
  unfold readIf? at h
  split at h
  · rename_i x hx
    split at h
    · rename_i hp
      simp only [Option.some.injEq, Prod.mk.injEq] at h
      obtain ⟨rfl, rfl⟩ := h
      exact ⟨hx, hp, rfl⟩
    · simp at h
  · simp at h

theorem next?_eq_some {ch : Char} (h : c.next? = some (ch, d)) :
    c.peek? = some ch ∧ d = c.read 1 := by
  simp only [next?, Option.map_eq_some_iff, Prod.mk.injEq] at h
  obtain ⟨x, hx, rfl, rfl⟩ := h
  exact ⟨hx, rfl⟩

theorem took_next? {ch : Char} (h : c.next? = some (ch, d)) : c.Took [ch] d := by
  obtain ⟨hpeek, rfl⟩ := next?_eq_some h
  exact took_read_one hpeek

theorem advances_next? {ch : Char} (h : c.next? = some (ch, d)) : c.Advances d :=
  ⟨[ch], by simp, took_next? h⟩

theorem next?_eq_none (h : c.next? = none) : c.rest = [] := by
  simpa [next?, peek?] using h

theorem took_readChar? {ch : Char} (h : c.readChar? ch = some d) : c.Took [ch] d := by
  simp only [readChar?, Option.map_eq_some_iff, Prod.exists] at h
  obtain ⟨x, d', hx, rfl⟩ := h
  obtain ⟨hpeek, hch, rfl⟩ := readIf?_eq_some hx
  obtain rfl : x = ch := by simpa using hch
  exact took_read_one hpeek

theorem advances_readChar? {ch : Char} (h : c.readChar? ch = some d) : c.Advances d :=
  ⟨[ch], by simp, took_readChar? h⟩

/-- A run of characters that is not empty moves the cursor. -/
theorem advances_readWhile? {p : Char → Bool} (h : c.readWhile? p = some d) : c.Advances d := by
  unfold readWhile? at h
  split at h
  · rename_i found hfound
    obtain ⟨hpeek, hp, -⟩ : c.peek? = some found.1 ∧ p found.1 = true ∧ found.2 = c.read 1 :=
      readIf?_eq_some hfound
    simp only [Option.some.injEq] at h
    subst h
    cases hrest : c.rest with
    | nil => simp [peek?, hrest] at hpeek
    | cons ch rest =>
      have hch : ch = found.1 := by simpa [peek?, hrest] using hpeek
      refine advances_read ?_ (by simp [hrest])
      rw [hrest, List.takeWhile_cons, hch, if_pos hp]
      simp
  · simp at h

theorem reaches_readLiteral? {literal : List Char} (h : c.readLiteral? literal = some d) :
    c.Reaches d := by
  unfold readLiteral? at h
  split at h
  · simp only [Option.some.injEq] at h
    exact h ▸ reaches_read _ c
  · simp at h

theorem reaches_readLiteralAnyCase? {literal : List Char}
    (h : c.readLiteralAnyCase? literal = some d) : c.Reaches d := by
  unfold readLiteralAnyCase? at h
  split at h
  · simp only [Option.some.injEq] at h
    exact h ▸ reaches_read _ c
  · simp at h

theorem reaches_readString (quote : Char) (c : Cursor) : c.Reaches (c.readString quote) :=
  reaches_read _ c

/-! ## Giving back -/

/-- Giving back the size of a final part of the token gives back that
part. -/
theorem unread_append {kept given : List Char} (h : c.token = kept ++ given) :
    c.unread (byteSize given) = { c with token := kept, rest := given ++ c.rest } := by
  have hsize : byteSize c.token - byteSize given = byteSize kept := by
    rw [h, byteSize_append]
    omega
  simp only [unread, hsize]
  rw [h, splitBytes_byteSize]

/-- A move stays one when part of what it took is given back. -/
theorem Took.unread {given : List Char} (h : c.Took (text ++ given) d) :
    c.Took text (d.unread (byteSize given)) := by
  have htoken : d.token = (c.token ++ text) ++ given := by rw [h.token, List.append_assoc]
  rw [unread_append htoken]
  exact ⟨h.before, rfl, by rw [h.rest, List.append_assoc], h.tabSize⟩

/-- Reading as many bytes as the next character has reads that
character. -/
theorem readBytes_utf8Size {ch : Char} {rest : List Char} (h : c.rest = ch :: rest) :
    c.readBytes ch.utf8Size = c.read 1 := by
  have hsplit : splitBytes (byteSize [ch]) ([ch] ++ rest) = ([ch], rest) :=
    splitBytes_byteSize [ch] rest
  simp only [byteSize_cons, byteSize_nil, Nat.add_zero, List.singleton_append] at hsplit
  rw [readBytes, h, hsplit]
  rfl

end Cursor

/-! ## Scans -/

namespace Scan

/-- A scan of something takes something: the mark it looks for is not
empty. -/
theorem through_width_pos {mark text : List Char} (hmark : mark ≠ []) (h : text ≠ []) :
    0 < (through mark text).width := by
  cases text with
  | nil => exact absurd rfl h
  | cons c cs =>
    rw [through]
    split
    · exact List.length_pos_iff.mpr hmark
    · exact Nat.succ_pos _

theorem quoted_width_pos {quote : Char} {escaped : Bool} {text : List Char} (h : text ≠ []) :
    0 < (quoted quote escaped text).width := by
  cases text with
  | nil => exact absurd rfl h
  | cons c cs =>
    rw [quoted]
    split
    · exact Nat.one_pos
    · exact Nat.succ_pos _

end Scan

namespace Tokenizer

variable {σ : Type}

/-- **What the line driver asks of a tokenizer.** A token that starts
before the end of its line moves the cursor forward by one character at
least, within the line, and leaves the start of the token alone. -/
def Consumes (t : Tokenizer σ) : Prop :=
  ∀ (c : Cursor) (s : σ), c.token = [] → c.rest ≠ [] → c.Advances (t.token c s).cursor

end Tokenizer

end MixedMarkup
