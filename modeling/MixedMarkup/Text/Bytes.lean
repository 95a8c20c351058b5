/-!
# Text — sizes in bytes

Positions on a line are byte offsets into its UTF-8 form. A text is a list
of characters, so an offset is the size of what stands before it, and a
cut at an offset is a cut between two characters.
-/

namespace MixedMarkup

namespace Text

/-- The number of bytes of the UTF-8 form of a text. -/
def byteSize : List Char → Nat
  | [] => 0
  | c :: cs => c.utf8Size + byteSize cs

/-- The longest initial part of at most `n` bytes, and what follows it. -/
def splitBytes : Nat → List Char → List Char × List Char
  | _, [] => ([], [])
  | n, c :: cs =>
    if c.utf8Size ≤ n then
      let (taken, left) := splitBytes (n - c.utf8Size) cs
      (c :: taken, left)
    else ([], c :: cs)

@[simp] theorem byteSize_nil : byteSize [] = 0 := rfl

@[simp] theorem byteSize_cons (c : Char) (cs : List Char) :
    byteSize (c :: cs) = c.utf8Size + byteSize cs := rfl

@[simp] theorem byteSize_append (a b : List Char) :
    byteSize (a ++ b) = byteSize a + byteSize b := by
  induction a with
  | nil => simp
  | cons c cs ih => simp [ih, Nat.add_assoc]

/-- A cut loses nothing. -/
theorem splitBytes_append (n : Nat) (cs : List Char) :
    (splitBytes n cs).1 ++ (splitBytes n cs).2 = cs := by
  induction cs generalizing n with
  | nil => rfl
  | cons c cs ih =>
    by_cases h : c.utf8Size ≤ n
    · simp [splitBytes, h, ih]
    · simp [splitBytes, h]

/-- A cut at the size of an initial part falls at its end. -/
theorem splitBytes_byteSize (a b : List Char) : splitBytes (byteSize a) (a ++ b) = (a, b) := by
  induction a with
  | nil =>
    cases b with
    | nil => rfl
    | cons c cs =>
      have : ¬ c.utf8Size ≤ 0 := by have := c.utf8Size_pos; omega
      simp [splitBytes, this]
  | cons c cs ih => simp [splitBytes, ih]

end Text

end MixedMarkup
