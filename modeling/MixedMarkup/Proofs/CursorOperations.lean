import MixedMarkup.Pattern.AtCursor
import MixedMarkup.Proofs.CheckedCursor
import MixedMarkup.Proofs.LetterCase
/-!
# The line cursor — operations on byte offsets

A cursor is kept as three texts, but to its callers it is two byte offsets on
a line. An operation on the offsets looks at the text behind them, adds or
takes away sizes, and compares bytes; nothing in it says that the sum falls
between two characters. Here each operation is told in these terms
(`Operation.onOffsets?`), with no answer where it would cut a character, leave
the line, or is called outside of what it is for.

On the offsets of a cursor an allowed operation always has an answer, and
that is where the operation leads the cursor (`onOffsets?_offsets`). So no
sequence of allowed operations leaves the boundaries between characters
(`offsets_on_boundaries`). That comparing bytes is comparing characters rests
on the UTF-8 form: no character's form begins another's, and the bytes of
capitals occur in no form but theirs (`beginsWith_eq`).
-/

namespace MixedMarkup

namespace Text

variable {a b literal rest : List Char} {c : Char}

/-! ## Bytes -/

/-- The UTF-8 form of a text. -/
def utf8 (text : List Char) : List UInt8 := text.flatMap String.utf8EncodeChar

/-- A byte with the letters of ASCII in lower case. -/
def lowerByte (byte : UInt8) : UInt8 :=
  if 0x41 ≤ byte ∧ byte ≤ 0x5a then byte + 0x20 else byte

/-- Whether the form of a text begins with that of a literal, where the case
of the letters of ASCII may or may not count. -/
def beginsWith (anyCase : Bool) (literal rest : List Char) : Bool :=
  let candidate := (utf8 rest).take (utf8 literal).length
  if anyCase then candidate.map lowerByte == (utf8 literal).map lowerByte
  else candidate == utf8 literal

@[simp] theorem length_utf8 (text : List Char) : (utf8 text).length = byteSize text := by
  induction text with
  | nil => rfl
  | cons c text ih =>
    rw [utf8, List.flatMap_cons, List.length_append, String.length_utf8EncodeChar, byteSize_cons]
    exact congrArg _ ih

/-- **A text begins with another** if its form begins with the other's. -/
theorem utf8_prefix_iff : utf8 a <+: utf8 b ↔ a <+: b := by
  constructor
  · rintro ⟨bytes, h⟩
    refine List.isPrefix_of_utf8Encode_append_eq_utf8Encode bytes.toByteArray ?_
    exact List.toByteArray_append.symm.trans (congrArg List.toByteArray h)
  · rintro ⟨left, rfl⟩
    exact ⟨utf8 left, List.flatMap_append.symm⟩

theorem lowerByte_ofNat {n : Nat} (hn : n < 256) (h : ¬ (65 ≤ n ∧ n ≤ 90)) :
    lowerByte (UInt8.ofNat n) = UInt8.ofNat n := by
  rw [lowerByte, if_neg]
  rw [UInt8.le_iff_toNat_le, UInt8.le_iff_toNat_le, UInt8.toNat_ofNat_of_lt' hn]
  exact h

/-- A byte of a character's form is the character, or no byte of ASCII. -/
theorem exists_ofNat_of_mem {byte : UInt8} (h : byte ∈ String.utf8EncodeChar c) :
    ∃ n < 256, byte = UInt8.ofNat n ∧ (n = c.toNat ∨ 128 ≤ n) := by
  have hval : c.val.toNat = c.toNat := rfl
  simp only [String.utf8EncodeChar, hval] at h
  split at h
  · obtain rfl := List.mem_singleton.mp h
    exact ⟨_, by omega, rfl, .inl rfl⟩
  split at h
  · simp only [List.mem_cons, List.not_mem_nil, or_false] at h
    rcases h with rfl | rfl <;> exact ⟨_, by omega, rfl, .inr (by omega)⟩
  split at h
  · simp only [List.mem_cons, List.not_mem_nil, or_false] at h
    rcases h with rfl | rfl | rfl <;> exact ⟨_, by omega, rfl, .inr (by omega)⟩
  · simp only [List.mem_cons, List.not_mem_nil, or_false] at h
    rcases h with rfl | rfl | rfl | rfl <;> exact ⟨_, by omega, rfl, .inr (by omega)⟩

/-- **Lower case is the same for characters and for bytes.** -/
theorem map_lowerByte_utf8EncodeChar (c : Char) :
    (String.utf8EncodeChar c).map lowerByte = String.utf8EncodeChar c.toLower := by
  by_cases hcapital : 65 ≤ c.toNat ∧ c.toNat ≤ 90
  · have hcapitals : ∀ n ∈ List.range' 65 26,
        (String.utf8EncodeChar (Char.ofNat n)).map lowerByte =
          String.utf8EncodeChar (Char.ofNat n).toLower := by decide
    have hc := hcapitals c.toNat (by rw [List.mem_range'_1]; omega)
    rwa [Char.ofNat_toNat] at hc
  · have hsame : ∀ byte ∈ String.utf8EncodeChar c, lowerByte byte = byte := by
      intro byte hbyte
      obtain ⟨n, hn, rfl, hascii⟩ := exists_ofNat_of_mem hbyte
      exact lowerByte_ofNat hn (by omega)
    rw [toLower_of_not_capital hcapital, List.map_congr_left (g := id) hsame, List.map_id]

theorem map_lowerByte_utf8 (text : List Char) :
    (utf8 text).map lowerByte = utf8 (text.map Char.toLower) := by
  rw [utf8, utf8, List.map_flatMap, List.flatMap_map]
  exact congrArg (List.flatMap · text) (funext map_lowerByte_utf8EncodeChar)

/-- **Comparing bytes is comparing characters.** -/
theorem beginsWith_eq (anyCase : Bool) (literal rest : List Char) :
    beginsWith anyCase literal rest =
      if anyCase then (literal.map Char.toLower).isPrefixOf (rest.map Char.toLower)
      else literal.isPrefixOf rest := by
  rw [Bool.eq_iff_iff]
  cases anyCase with
  | false =>
    simp only [beginsWith, Bool.false_eq_true, if_false, beq_iff_eq, List.isPrefixOf_iff_prefix]
    rw [← utf8_prefix_iff, List.prefix_iff_eq_take, eq_comm]
  | true =>
    simp only [beginsWith, if_true, beq_iff_eq, List.isPrefixOf_iff_prefix]
    rw [← utf8_prefix_iff, List.prefix_iff_eq_take, List.map_take, map_lowerByte_utf8,
      map_lowerByte_utf8, length_utf8, length_utf8, byteSize_map_toLower, eq_comm]

/-- A part as long as the text is all of it. -/
theorem splitBytes_of_le {n : Nat} (h : byteSize a ≤ n) : (splitBytes n a).1 = a := by
  induction a generalizing n with
  | nil => rfl
  | cons c a ih =>
    rw [byteSize_cons] at h
    rw [splitBytes, if_pos (by omega)]
    exact congrArg _ (ih (by omega))

end Text

namespace Cursor

open Text

/-! ## Operations -/

/-- What can be read at a cursor, depending on the text ahead. -/
inductive Reading where
  | next
  | readIf (p : Char → Bool)
  | readChar (ch : Char)
  | readWhile (p : Char → Bool)
  | readBlanks
  | readTo (ch : Char)
  | literal (text : List Char) (anyCase : Bool)
  | pattern (p : Pattern)

/-- What can be asked of a cursor. A reading may be looked for only: to look
for the next character is to peek. -/
inductive Operation where
  | beginToken
  | ahead (r : Reading) (consume : Bool)
  | readAll
  | unread (n : Nat)
  | readBytes (n : Nat)

/-- The cursor behind what is read; `none` where it is not there. -/
def Reading.run? : Reading → Cursor → Option Cursor
  | next, c => c.next?.map (·.2)
  | readIf p, c => (c.readIf? p).map (·.2)
  | readChar ch, c => c.readChar? ch
  | readWhile p, c => c.readWhile? p
  | readBlanks, c => c.readBlanks?
  | readTo ch, c => c.readTo? ch
  | literal text false, c => c.readLiteral? text
  | literal text true, c => c.readLiteralAnyCase? text
  | pattern p, c => (c.readPattern? p).map (·.2)

namespace Operation

/-- What an operation leaves of the cursor; `none` where it fails. -/
def run? : Operation → Cursor → Option Cursor
  | beginToken, c => some c.beginToken
  | ahead r consume, c => (r.run? c).map fun d => if consume then d else c
  | readAll, c => some c.readAll
  | unread n, c => some (c.unread n)
  | readBytes n, c => some (c.readBytes n)

/-- The cursor after an operation. One that fails leaves it where it is. -/
def after (op : Operation) (c : Cursor) : Cursor := (op.run? c).getD c

/-- What an operation is for. Only as much of the token can be given back as
there is of it, and neither a move back nor one forward ends in a character;
a move forward stops at the end of the line. -/
def Allowed (c : Cursor) : Operation → Prop
  | unread n => n ≤ c.pos - c.start ∧ IsBoundary c.line (c.pos - n)
  | readBytes n => IsBoundary c.line (min (c.pos + n) (byteSize c.line))
  | beginToken | ahead _ _ | readAll => True

end Operation

/-- The operations lead from one cursor to another, and each is allowed where
it is performed. -/
inductive Leads : Cursor → List Operation → Cursor → Prop
  | done (c : Cursor) : Leads c [] c
  | step {c d : Cursor} {op : Operation} {ops : List Operation} :
      op.Allowed c → Leads (op.after c) ops d → Leads c (op :: ops) d

/-! ## On offsets -/

/-- What callers see of a cursor: where the token starts, and where the cursor
is. -/
structure Offsets where
  start : Nat
  pos : Nat
  deriving DecidableEq

/-- The offsets of a cursor. -/
def offsets (c : Cursor) : Offsets := ⟨c.start, c.pos⟩

/-- The size of the run at the start of a text, if there is one. -/
def runSize? (p : Char → Bool) (rest : List Char) : Option Nat :=
  if 0 < byteSize (rest.takeWhile p) then some (byteSize (rest.takeWhile p)) else none

/-- The bytes that are read of a text; `none` where there is nothing to
read. -/
def Reading.size? (rest : List Char) : Reading → Option Nat
  | next => rest.head?.map Char.utf8Size
  | readIf p => (rest.head?.filter p).map Char.utf8Size
  | readChar ch => (rest.head?.filter (· == ch)).map Char.utf8Size
  | readWhile p => runSize? p rest
  | readBlanks => runSize? isBlank rest
  | readTo ch => if ch ∈ rest then some (byteSize (rest.takeWhile (· != ch))) else none
  | literal text anyCase => if beginsWith anyCase text rest then some (utf8 text).length else none
  | pattern p => (p.matchStart? rest).map fun found => byteSize found.whole

/-- **An operation on offsets**: whether it succeeds, and the offsets after
it. There is no answer where the text behind the offset begins in a character
or beyond the line, and where the operation would end there or reach back
beyond the token. -/
def Operation.onOffsets? (line : List Char) (o : Offsets) : Operation → Option (Bool × Offsets)
  | beginToken => some (true, { o with start := o.pos })
  | ahead r consume =>
    (slice? line o.pos (byteSize line)).map fun rest =>
      match r.size? rest with
      | some n => (true, if consume then { o with pos := o.pos + n } else o)
      | none => (false, o)
  | readAll => some (true, { o with pos := byteSize line })
  | unread n =>
    if n ≤ o.pos - o.start ∧ IsBoundary line (o.pos - n) then
      some (true, { o with pos := o.pos - n })
    else none
  | readBytes n =>
    let pos := min (o.pos + n) (byteSize line)
    if IsBoundary line pos then some (true, { o with pos := pos }) else none

/-- Operations on offsets one after the other. -/
def Offsets.after? (line : List Char) (ops : List Operation) (o : Offsets) : Option Offsets :=
  ops.foldlM (fun o op => (op.onOffsets? line o).map (·.2)) o

/-! ## What is read -/

variable {c d : Cursor} {op : Operation} {ops : List Operation} {text : List Char} {n : Nat}

theorem Took.start (h : c.Took text d) : d.start = c.start := congrArg byteSize h.before

theorem Took.pos (h : c.Took text d) : d.pos = c.pos + byteSize text := by
  rw [Cursor.pos, Cursor.pos, h.before, h.token, byteSize_append, Nat.add_assoc]

theorem Reaches.start (h : c.Reaches d) : d.start = c.start := by
  obtain ⟨text, htook⟩ := h
  exact htook.start

theorem Reaches.pos_le (h : c.Reaches d) : c.pos ≤ d.pos := by
  obtain ⟨text, htook⟩ := h
  rw [htook.pos]
  exact Nat.le_add_right ..

theorem Reaches.line (h : c.Reaches d) : d.line = c.line := by
  obtain ⟨text, htook⟩ := h
  exact htook.line

/-- A line is as long as what is before the cursor and what is behind it. -/
theorem byteSize_line (c : Cursor) : byteSize c.line = c.pos + byteSize c.rest := by
  rw [Cursor.line, ← List.append_assoc, byteSize_append, pos_eq]

/-- What is read is a text of the size, and where there is no size nothing is
read. -/
def ReadsSize (c : Cursor) (d? : Option Cursor) (size? : Option Nat) : Prop :=
  Option.Rel (fun d n => ∃ text, c.Took text d ∧ byteSize text = n) d? size?

theorem readsSize_readIf (p : Char → Bool) (c : Cursor) :
    c.ReadsSize ((c.readIf? p).map (·.2)) ((c.rest.head?.filter p).map Char.utf8Size) := by
  cases hrest : c.rest with
  | nil => simp [readIf?, peek?, hrest, ReadsSize]
  | cons ch rest =>
    have hpeek : c.peek? = some ch := by simp [peek?, hrest]
    cases hp : p ch with
    | false => simp [readIf?, hpeek, Option.filter_some, hp, ReadsSize]
    | true =>
      have hread : c.ReadsSize (some (c.read 1)) (some ch.utf8Size) :=
        .some ⟨[ch], took_read_one hpeek, by simp⟩
      simpa [readIf?, hpeek, Option.filter_some, hp] using hread

/-- The next character is read whatever it is. -/
theorem readsSize_next (c : Cursor) :
    c.ReadsSize (c.next?.map (·.2)) (c.rest.head?.map Char.utf8Size) := by
  have hread := readsSize_readIf (fun _ => true) c
  cases hrest : c.rest with
  | nil => simp [next?, peek?, hrest, ReadsSize]
  | cons ch rest => simpa [next?, readIf?, peek?, hrest, Option.filter_some] using hread

/-- A run is read if there is a first character of it. -/
theorem readsSize_readWhile (p : Char → Bool) (c : Cursor) :
    c.ReadsSize (c.readWhile? p) (runSize? p c.rest) := by
  cases hrest : c.rest with
  | nil => simp [readWhile?, readIf?, peek?, hrest, runSize?, ReadsSize]
  | cons ch rest =>
    have hpeek : c.peek? = some ch := by simp [peek?, hrest]
    cases hp : p ch with
    | false => simp [readWhile?, readIf?, hpeek, runSize?, hp, ReadsSize]
    | true =>
      have hpos : 0 < byteSize ((ch :: rest).takeWhile p) := by
        have := ch.utf8Size_pos
        simp only [List.takeWhile_cons, hp, if_true, byteSize_cons]
        omega
      rw [runSize?, if_pos hpos, ← hrest]
      simp only [readWhile?, readIf?, hpeek, hp, if_true]
      exact .some ⟨_, took_skip p c, rfl⟩

theorem readsSize_readTo (ch : Char) (c : Cursor) :
    c.ReadsSize (c.readTo? ch)
      (if ch ∈ c.rest then some (byteSize (c.rest.takeWhile (· != ch))) else none) := by
  by_cases hmem : ch ∈ c.rest
  · simp only [readTo?, List.contains_iff_mem, hmem, if_true]
    exact .some ⟨_, took_skip (· != ch) c, rfl⟩
  · simp only [readTo?, List.contains_iff_mem, hmem, if_false]
    exact .none

/-- A literal is as long as what is read of the text, in any case. -/
theorem readsSize_literal (text : List Char) (anyCase : Bool) (c : Cursor) :
    c.ReadsSize (Reading.run? (.literal text anyCase) c)
      (if beginsWith anyCase text c.rest then some (utf8 text).length else none) := by
  rw [beginsWith_eq, length_utf8]
  cases anyCase with
  | false =>
    simp only [Reading.run?, Bool.false_eq_true, if_false, readLiteral?]
    split
    · rename_i hliteral
      obtain ⟨left, hleft⟩ := List.isPrefixOf_iff_prefix.mp hliteral
      have htake : c.rest.take text.length = text := by rw [← hleft, List.take_left]
      exact .some ⟨_, took_read text.length c, by rw [htake]⟩
    · exact .none
  | true =>
    simp only [Reading.run?, if_true, readLiteralAnyCase?]
    split
    · rename_i hliteral
      rw [List.isPrefixOf_iff_prefix, List.prefix_iff_eq_take, List.length_map,
        ← List.map_take] at hliteral
      have hsize := congrArg byteSize hliteral
      rw [byteSize_map_toLower, byteSize_map_toLower] at hsize
      exact .some ⟨_, took_read text.length c, hsize.symm⟩
    · exact .none

theorem readsSize_pattern (p : Pattern) (c : Cursor) :
    c.ReadsSize ((c.readPattern? p).map (·.2))
      ((p.matchStart? c.rest).map fun found => byteSize found.whole) := by
  cases hmatch : p.matchStart? c.rest with
  | none => simp [readPattern?, hmatch, ReadsSize]
  | some found =>
    -- what is found is a first part of the text
    obtain ⟨place, -, rfl⟩ := Option.map_eq_some_iff.mp hmatch
    have hread : c.ReadsSize (some (c.read (c.rest.take place.offset).length))
        (some (byteSize (c.rest.take place.offset))) := by
      refine .some ⟨_, took_read _ c, ?_⟩
      rw [List.length_take, ← List.take_take, List.take_length]
    simpa [readPattern?, hmatch] using hread

/-- **Whatever is read has the size that the bytes of the text ask for.** -/
theorem readsSize (r : Reading) (c : Cursor) : c.ReadsSize (r.run? c) (r.size? c.rest) := by
  cases r with
  | next => exact readsSize_next c
  | readIf p => exact readsSize_readIf p c
  | readChar ch => exact readsSize_readIf (· == ch) c
  | readWhile p => exact readsSize_readWhile p c
  | readBlanks => exact readsSize_readWhile isBlank c
  | readTo ch => exact readsSize_readTo ch c
  | literal text anyCase => exact readsSize_literal text anyCase c
  | pattern p => exact readsSize_pattern p c

/-! ## Steps -/

/-- A move forward by more bytes than the line has ends with the line. -/
theorem pos_readBytes (h : IsBoundary c.line (min (c.pos + n) (byteSize c.line))) :
    (c.readBytes n).pos = min (c.pos + n) (byteSize c.line) := by
  rcases Nat.le_total (c.pos + n) (byteSize c.line) with hle | hle
  · rw [Nat.min_eq_left hle] at h ⊢
    exact (pos_of_readBytes? (if_pos ⟨hle, h⟩)).1
  · have hsize := c.byteSize_line
    have hall : (splitBytes n c.rest).1 = c.rest := splitBytes_of_le (by omega)
    have htook := took_read (splitBytes n c.rest).1.length c
    rw [Nat.min_eq_right hle, readBytes, htook.pos, hall, List.take_length, hsize]

namespace Operation

/-- **Only the start of a token and a move back** do not move forward. -/
theorem reaches_after (hbegin : op ≠ .beginToken) (hback : ∀ n, op ≠ .unread n) (c : Cursor) :
    c.Reaches (op.after c) := by
  cases op with
  | beginToken => exact absurd rfl hbegin
  | unread n => exact absurd rfl (hback n)
  | readAll => exact reaches_read _ c
  | readBytes n => exact reaches_read _ c
  | ahead r consume =>
    have hread := readsSize r c
    rw [after, run?]
    generalize r.run? c = d?, r.size? c.rest = size? at hread
    cases hread with
    | none => exact .refl c
    | some hread =>
      obtain ⟨text, htook, -⟩ := hread
      cases consume with
      | false => exact .refl c
      | true => exact ⟨text, htook⟩

theorem start_after (hbegin : op ≠ .beginToken) (c : Cursor) : (op.after c).start = c.start := by
  by_cases hback : ∀ n, op ≠ .unread n
  · exact (reaches_after hbegin hback c).start
  · simp only [not_forall, not_not] at hback
    obtain ⟨n, rfl⟩ := hback
    rfl

theorem pos_le_after (hback : ∀ n, op ≠ .unread n) (c : Cursor) : c.pos ≤ (op.after c).pos := by
  by_cases hbegin : op = .beginToken
  · subst hbegin
    exact (pos_beginToken c).ge
  · exact (reaches_after hbegin hback c).pos_le

@[simp] theorem line_after (op : Operation) (c : Cursor) : (op.after c).line = c.line := by
  cases op with
  | beginToken => exact line_beginToken c
  | unread n => exact line_unread n c
  | ahead r consume => exact (reaches_after (by simp) (by simp) c).line
  | readAll => exact line_read _ c
  | readBytes n => exact line_read _ c

/-- What is only looked for, and what fails, leaves the cursor alone. -/
theorem after_of_looks (h : (∃ r, op = .ahead r false) ∨ op.run? c = none) : op.after c = c := by
  rcases h with ⟨r, rfl⟩ | h
  · rw [after, run?]
    cases r.run? c <;> rfl
  · rw [after, h]
    rfl

/-- **On the offsets of a cursor an allowed operation has an answer**, and the
offsets after it are those of the cursor that it leads to. -/
theorem onOffsets?_offsets (h : op.Allowed c) :
    op.onOffsets? c.line c.offsets = some ((op.run? c).isSome, (op.after c).offsets) := by
  cases op with
  | beginToken =>
    have hstart : c.beginToken.start = c.pos := (pos_eq c).symm
    simp [onOffsets?, after, run?, offsets, hstart]
  | ahead r consume =>
    have hrest : slice? c.line c.offsets.pos (byteSize c.line) = some c.rest := c.slices.1
    have hread := readsSize r c
    rw [onOffsets?, hrest, Option.map_some, after, run?]
    generalize r.run? c = d?, r.size? c.rest = size? at hread
    cases hread with
    | none => rfl
    | some hread =>
      obtain ⟨text, htook, rfl⟩ := hread
      cases consume with
      | false => rfl
      | true => simp [offsets, htook.start, htook.pos]
  | readAll =>
    have htook := took_read c.rest.length c
    rw [List.take_length] at htook
    rw [onOffsets?, after, run?, byteSize_line, ← htook.pos]
    rfl
  | unread n =>
    have hback : n ≤ c.pos - c.start ∧ IsBoundary c.line (c.pos - n) := h
    obtain ⟨hpos, hstart, -⟩ := pos_of_unread? (if_pos hback)
    have hanswer : onOffsets? c.line c.offsets (unread n) = some (true, ⟨c.start, c.pos - n⟩) :=
      if_pos hback
    rw [hanswer, ← hpos, Nat.add_sub_cancel, ← hstart]
    rfl
  | readBytes n =>
    have hforward : IsBoundary c.line (min (c.pos + n) (byteSize c.line)) := h
    have hanswer : onOffsets? c.line c.offsets (readBytes n) =
        some (true, ⟨c.start, min (c.pos + n) (byteSize c.line)⟩) := if_pos hforward
    rw [hanswer, ← pos_readBytes hforward]
    rfl

end Operation

/-! ## Runs -/

/-- **Operations lead the offsets where they lead the cursor**, which stays on
its line. -/
theorem Leads.after? (h : c.Leads ops d) :
    c.offsets.after? c.line ops = some d.offsets ∧ d.line = c.line := by
  induction h with
  | done c => exact ⟨rfl, rfl⟩
  | @step c d op ops hallowed _ ih =>
    obtain ⟨hoffsets, hline⟩ := ih
    rw [Operation.line_after] at hoffsets hline
    refine ⟨?_, hline⟩
    rw [Offsets.after?, List.foldlM_cons, op.onOffsets?_offsets hallowed]
    exact hoffsets

/-- **Every operation keeps the cursor on the boundaries of its line.** Take
any allowed operations from the start of a line. The token starts before the
cursor or at it, both are on the line and between two of its characters, and
the token and the rest are what the line is from the start of the token on.
The operations on the offsets alone lead to the same offsets. And whatever
operation comes next: only the start of a token moves the start, only a move
back moves the cursor back, and what is only looked for or fails moves
nothing; on the offsets it has an answer wherever it is allowed. -/
theorem offsets_on_boundaries {tabSize : Nat} {line : List Char}
    (h : (withTabSize tabSize line).Leads ops c) :
    c.start ≤ c.pos ∧ c.pos ≤ byteSize line ∧ IsBoundary line c.start ∧ IsBoundary line c.pos ∧
      (slice? line c.start c.pos = some c.token ∧ slice? line c.pos (byteSize line) = some c.rest ∧
        slice? line c.start (byteSize line) = some (c.token ++ c.rest)) ∧
      Offsets.after? line ops ⟨0, 0⟩ = some c.offsets ∧
      ∀ op : Operation,
        (op ≠ .beginToken → (op.after c).start = c.start) ∧
        ((∀ n, op ≠ .unread n) → c.pos ≤ (op.after c).pos) ∧
        ((∃ r, op = .ahead r false) ∨ op.run? c = none → op.after c = c) ∧
        (op.Allowed c →
          op.onOffsets? line c.offsets = some ((op.run? c).isSome, (op.after c).offsets)) := by
  obtain ⟨hoffsets, hline⟩ := h.after?
  have hline' : c.line = line := hline.trans (line_withTabSize tabSize line)
  subst hline'
  obtain ⟨hrest, htoken, -⟩ := c.slices
  have hfrom : slice? c.line c.start (byteSize c.line) = some (c.token ++ c.rest) := by
    have hslice := slice?_append c.before (c.token ++ c.rest) []
    rwa [List.append_nil, ← byteSize_append] at hslice
  refine ⟨Nat.le_add_right .., ?_, ⟨c.before, _, rfl, rfl⟩,
    ⟨c.before ++ c.token, c.rest, (List.append_assoc ..).symm, c.pos_eq.symm⟩,
    ⟨htoken, hrest, hfrom⟩, hoffsets, ?_⟩
  · rw [byteSize_line]
    exact Nat.le_add_right ..
  · intro op
    exact ⟨fun hbegin => op.start_after hbegin c, fun hback => op.pos_le_after hback c,
      op.after_of_looks, op.onOffsets?_offsets⟩

/-- Over a character of two bytes, through a literal in the other case, back
by a byte, and forward by more than there is. -/
theorem offsets_on_boundaries_past_accent :
    (withTabSize 4 ['é', '<', 'B', 'x']).Leads
        [.ahead .next false, .ahead .next true, .beginToken,
          .ahead (.literal ['<', 'b'] true) true, .unread 1, .readBytes 9]
        ⟨['é'], ['<', 'B', 'x'], [], 4⟩ ∧
      Offsets.after? ['é', '<', 'B', 'x']
        [.ahead .next false, .ahead .next true, .beginToken,
          .ahead (.literal ['<', 'b'] true) true, .unread 1, .readBytes 9] ⟨0, 0⟩ =
        some ⟨2, 5⟩ := by
  have hleads : (withTabSize 4 ['é', '<', 'B', 'x']).Leads
      [.ahead .next false, .ahead .next true, .beginToken,
        .ahead (.literal ['<', 'b'] true) true, .unread 1, .readBytes 9]
      ⟨['é'], ['<', 'B', 'x'], [], 4⟩ := by
    refine .step trivial (.step trivial (.step trivial (.step trivial (.step ?_ (.step ?_ ?_)))))
    · exact ⟨by decide, by decide⟩
    · change IsBoundary _ _
      decide
    · exact .done _
  obtain ⟨-, -, -, -, -, hoffsets, -⟩ := offsets_on_boundaries hleads
  exact ⟨hleads, hoffsets⟩

end Cursor

end MixedMarkup
