import MixedMarkup.Text.CaseFolding
import MixedMarkup.Tokenizer
/-!
# Mixed documents — closing tags

The tag that ends an embedded region, as it is looked for in the region's
text: `</`, blanks, the element's name in any case, blanks, `>`. An
embedded tokenizer knows nothing of it, so a token may contain it or end
in the middle of it; `trim` gives back so much of the token that the tag
is left for the host.
-/

namespace MixedMarkup

namespace Mixed

open Text

/-- An element whose body is in another grammar. -/
inductive EmbeddingElement where
  | script
  | style
  deriving DecidableEq

namespace EmbeddingElement

/-- The name of the element. -/
def name : EmbeddingElement → String
  | script => "script"
  | style => "style"

/-- Whether the closing tag stands at the start of a text. -/
def closesAt (e : EmbeddingElement) : List Char → Bool
  | '<' :: '/' :: text =>
    match dropAnyCase? e.name.toList (dropBlanks text) with
    | some rest => (dropBlanks rest).head? == some '>'
    | none => false
  | _ => false

/-- The byte offset of the first closing tag in a text. -/
def findClosing? (e : EmbeddingElement) : List Char → Option Nat
  | [] => none
  | c :: text =>
    if e.closesAt (c :: text) then some 0
    else (e.findClosing? text).map (c.utf8Size + ·)

/-- Whether a text is the start of a name in any case, or the name and blanks after it. -/
def isTornName : List Char → List Char → Bool
  | _, [] => true
  | [], text => text.all isBlank
  | n :: name, c :: text => foldCase c == n && isTornName name text

/-- Whether a text is the start of a closing tag without its `>`. -/
def isTorn (e : EmbeddingElement) : List Char → Bool
  | ['<'] => true
  | '<' :: '/' :: text => isTornName e.name.toList (dropBlanks text)
  | _ => false

/-- Whether a text ends in the start of a closing tag. -/
def endsTorn (e : EmbeddingElement) : List Char → Bool
  | [] => false
  | c :: text => e.isTorn (c :: text) || e.endsTorn text

/-- Whether a text ends in `<` or `</`. -/
def endsInOpener : List Char → Bool
  | [] => false
  | c :: text => (c :: text == ['<']) || (c :: text == ['<', '/']) || endsInOpener text

/-- Whether a closing tag may be torn at the end of a text. A start longer than `</` can only be
completed if more of the line follows. -/
def mayTear (e : EmbeddingElement) (text : List Char) (moreFollows : Bool) : Bool :=
  endsInOpener text || (moreFollows && e.endsTorn text)

/-- Give back so much of the token just read that the closing tag is left for the host. A token
that contains the tag is cut before it. One that may end in a torn tag shrinks to its first
character, or to nothing if the tag starts there. -/
def trim (e : EmbeddingElement) (c : Cursor) : Cursor :=
  match e.findClosing? c.token with
  | some 0 => c
  | some offset => c.unread (byteSize c.token - offset)
  | none =>
    if e.mayTear c.token (!c.atEnd) then
      let back := c.unread (byteSize c.token)
      if e.closesAt back.rest then back
      else
        match c.token with
        | first :: _ => back.readBytes first.utf8Size
        | [] => back
    else c

end EmbeddingElement

end Mixed

end MixedMarkup
