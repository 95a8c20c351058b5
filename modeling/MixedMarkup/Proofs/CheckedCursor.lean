import MixedMarkup.Proofs.RegionExit
/-!
# The line cursor — slices and checked moves

To give back more bytes than the token has, to read more than the line
has left, or to cut a character in two is outside of what a move is for,
yet the moves of the cursor are total and do something all the same. The
checked moves here refuse it: each looks at byte offsets of the line
alone, and moves as the cursor does where they allow it. A checked move
changes the position by exactly the bytes it was asked for
(`pos_of_unread?`, `pos_of_readBytes?`), and it is made exactly where
these bytes are the end of the token or the start of the rest.

The parts of a cursor are slices of its line in the same sense
(`Cursor.slices`).
-/

namespace MixedMarkup

namespace Text

variable {text a b : List Char} {n : Nat}

/-- The byte offset cuts the text between two characters, or at an end of it. -/
def IsBoundary (text : List Char) (offset : Nat) : Prop :=
  ∃ a b, text = a ++ b ∧ byteSize a = offset

theorem isBoundary_append (a b : List Char) : IsBoundary (a ++ b) (byteSize a) :=
  ⟨a, b, rfl, rfl⟩

theorem isBoundary_iff : IsBoundary text n ↔ byteSize (splitBytes n text).1 = n := by
  constructor
  · rintro ⟨a, b, rfl, rfl⟩
    rw [splitBytes_byteSize]
  · intro h
    exact ⟨_, _, (splitBytes_append n text).symm, h⟩

instance (text : List Char) (n : Nat) : Decidable (IsBoundary text n) :=
  decidable_of_iff _ isBoundary_iff.symm

/-- The text between two byte offsets, which must be in order, within the
text and on boundaries. -/
def slice? (text : List Char) (start stop : Nat) : Option (List Char) :=
  if start ≤ stop ∧ stop ≤ byteSize text ∧ IsBoundary text start ∧ IsBoundary text stop then
    some (splitBytes (stop - start) (splitBytes start text).2).1
  else none

theorem slice?_append (a b c : List Char) :
    slice? (a ++ (b ++ c)) (byteSize a) (byteSize a + byteSize b) = some b := by
  have hstop : IsBoundary (a ++ (b ++ c)) (byteSize a + byteSize b) :=
    ⟨a ++ b, c, by simp, by simp⟩
  rw [slice?, if_pos ⟨by omega, by simp, isBoundary_append a _, hstop⟩,
    splitBytes_byteSize, Nat.add_sub_cancel_left, splitBytes_byteSize]

end Text

namespace Cursor

open Text

variable {c d : Cursor} {n : Nat}

/-! ## Slices -/

/-- The rest of the line, cut at the offset of the cursor. -/
def rest? (c : Cursor) : Option (List Char) := slice? c.line c.pos (byteSize c.line)

/-- The token, cut at the offsets of its start and of the cursor. -/
def token? (c : Cursor) : Option (List Char) := slice? c.line c.start c.pos

/-- The column of the token, computed from the line up to the offset of its start. -/
def column? (c : Cursor) : Option Nat := (slice? c.line 0 c.start).map (columnWidth c.tabSize)

/-- **A cursor's parts are slices of its line**: their offsets are in
range, and none cuts a character. -/
theorem slices (c : Cursor) :
    c.rest? = some c.rest ∧ c.token? = some c.token ∧ c.column? = some c.column := by
  refine ⟨?_, ?_, ?_⟩
  · have h := slice?_append (c.before ++ c.token) c.rest []
    rw [List.append_nil, List.append_assoc, ← byteSize_append, List.append_assoc] at h
    rw [rest?, pos_eq]
    exact h
  · exact slice?_append c.before c.token c.rest
  · have h := slice?_append [] c.before (c.token ++ c.rest)
    rw [byteSize_nil, Nat.zero_add] at h
    rw [column?, column, line, start]
    exact congrArg (Option.map (columnWidth c.tabSize)) h

/-! ## Checked moves -/

/-- Give back the last `n` bytes of the token, if it has as many and they
start between two characters. -/
def unread? (n : Nat) (c : Cursor) : Option Cursor :=
  if n ≤ c.pos - c.start ∧ IsBoundary c.line (c.pos - n) then some (c.unread n) else none

/-- Read the next `n` bytes, if the line has as many and they end between
two characters. -/
def readBytes? (n : Nat) (c : Cursor) : Option Cursor :=
  if c.pos + n ≤ byteSize c.line ∧ IsBoundary c.line (c.pos + n) then some (c.readBytes n) else none

/-- Read the bytes of the next `width` characters, if the line has as many. -/
def readWidth? (width : Nat) (c : Cursor) : Option Cursor :=
  if width ≤ c.rest.length then c.readBytes? (byteSize (c.rest.take width)) else none

/-- What is given back is the end of the token. -/
theorem unread?_eq_some_iff : c.unread? n = some d ↔
    ∃ kept given, c.token = kept ++ given ∧ byteSize given = n ∧
      d = { c with token := kept, rest := given ++ c.rest } := by
  constructor
  · intro h
    simp only [unread?, Option.ite_none_right_eq_some, Option.some.injEq] at h
    obtain ⟨⟨hle, u, v, hline, hu⟩, rfl⟩ := h
    have hlen : n ≤ byteSize c.token := by simpa [pos, start] using hle
    -- the boundary stands in the token, so it cuts the token in two
    obtain ⟨kept, rfl, hkept⟩ : ∃ kept, u = c.before ++ kept ∧ c.token ++ c.rest = kept ++ v :=
      exists_append_of_byteSize_le hline (by rw [hu, pos]; omega)
    rw [byteSize_append, pos] at hu
    obtain ⟨given, htoken, -⟩ : ∃ given, c.token = kept ++ given ∧ v = given ++ c.rest :=
      exists_append_of_byteSize_le hkept.symm (by omega)
    have hgiven : byteSize given = n := by
      have := congrArg byteSize htoken
      rw [byteSize_append] at this
      omega
    exact ⟨kept, given, htoken, hgiven, by rw [← hgiven, unread_append htoken]⟩
  · rintro ⟨kept, given, htoken, rfl, rfl⟩
    have hline : c.line = (c.before ++ kept) ++ (given ++ c.rest) := by
      simp [line, htoken]
    have hpos : c.pos - byteSize given = byteSize (c.before ++ kept) := by
      simp only [pos, htoken, byteSize_append]
      omega
    have hlen : byteSize given ≤ c.pos - c.start := by
      simp only [pos, start, htoken, byteSize_append]
      omega
    rw [unread?, hpos, hline, if_pos ⟨hlen, isBoundary_append _ _⟩, unread_append htoken]

/-- What is read is the start of the rest. -/
theorem readBytes?_eq_some_iff : c.readBytes? n = some d ↔
    ∃ text left, c.rest = text ++ left ∧ byteSize text = n ∧ d = c.read text.length := by
  constructor
  · intro h
    simp only [readBytes?, Option.ite_none_right_eq_some, Option.some.injEq] at h
    obtain ⟨⟨-, u, v, hline, hu⟩, rfl⟩ := h
    rw [line, ← List.append_assoc] at hline
    obtain ⟨text, rfl, hrest⟩ : ∃ text, u = (c.before ++ c.token) ++ text ∧ c.rest = text ++ v :=
      exists_append_of_byteSize_le hline (by rw [hu, pos_eq]; omega)
    have htext : byteSize text = n := by
      rw [byteSize_append, ← pos_eq] at hu
      omega
    exact ⟨text, v, hrest, htext, by rw [← htext, readBytes, hrest, splitBytes_byteSize]⟩
  · rintro ⟨text, left, hrest, rfl, rfl⟩
    have hline : c.line = ((c.before ++ c.token) ++ text) ++ left := by simp [line, hrest]
    have hpos : c.pos + byteSize text = byteSize ((c.before ++ c.token) ++ text) := by
      rw [byteSize_append, ← pos_eq]
    rw [readBytes?, hpos, hline, if_pos ⟨by simp, isBoundary_append _ _⟩, readBytes, hrest,
      splitBytes_byteSize]

/-- **A move back is by as many bytes as were asked for**, within the token. -/
theorem pos_of_unread? (h : c.unread? n = some d) :
    d.pos + n = c.pos ∧ d.start = c.start ∧ d.line = c.line := by
  obtain ⟨kept, given, htoken, rfl, rfl⟩ := unread?_eq_some_iff.mp h
  refine ⟨?_, rfl, by simp [line, htoken]⟩
  simp only [pos, htoken, byteSize_append]
  omega

/-- **A move forward is by as many bytes as were asked for**, within the line. -/
theorem pos_of_readBytes? (h : c.readBytes? n = some d) :
    d.pos = c.pos + n ∧ d.start = c.start ∧ d.line = c.line := by
  obtain ⟨text, left, hrest, rfl, rfl⟩ := readBytes?_eq_some_iff.mp h
  refine ⟨?_, rfl, line_read _ c⟩
  have htext : c.rest.take text.length = text := by rw [hrest, List.take_left]
  simp only [pos, read, htext, byteSize_append]
  omega

theorem unread?_append {kept given : List Char} (h : c.token = kept ++ given) :
    c.unread? (byteSize given) = some { c with token := kept, rest := given ++ c.rest } :=
  unread?_eq_some_iff.mpr ⟨kept, given, h, rfl, rfl⟩

/-- The end of a token can be given back. -/
theorem unread?_eq {kept given : List Char} (h : c.token = kept ++ given) :
    c.unread? (byteSize given) = some (c.unread (byteSize given)) := by
  rw [unread?_append h, unread_append h]

theorem readBytes?_eq {text left : List Char} (h : c.rest = text ++ left) :
    c.readBytes? (byteSize text) = some (c.readBytes (byteSize text)) := by
  rw [readBytes?_eq_some_iff]
  exact ⟨text, left, h, rfl, by rw [readBytes, h, splitBytes_byteSize]⟩

/-- Characters that are there can be read by their bytes. -/
theorem readWidth?_eq {width : Nat} (h : width ≤ c.rest.length) :
    c.readWidth? width = some (c.read width) := by
  rw [readWidth?, if_pos h, readBytes?_eq_some_iff]
  exact ⟨c.rest.take width, c.rest.drop width, (List.take_append_drop width c.rest).symm, rfl,
    by rw [List.length_take_of_le h]⟩

end Cursor

end MixedMarkup
