/-!
# Files

What a name stands for in the file system, as far as reading goes.
-/

namespace MixedMarkup

/-- What is found under a file name. -/
inductive FileEntry where
  | missing
  | directory
  /-- A file whose bytes are no UTF-8 text. -/
  | notText
  | text (content : String)
  deriving DecidableEq

/-- A file from its bytes. -/
def FileEntry.ofBytes (bytes : ByteArray) : FileEntry :=
  match String.fromUTF8? bytes with
  | some content => .text content
  | none => .notText

end MixedMarkup
