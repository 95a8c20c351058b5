import MixedMarkup.Text.Digits
import MixedMarkup.Text.Printable
/-!
# Text — quoted texts

Two written forms of a text between quotes. The plain form shows every
character that does not show as itself by a short escape or by its code
point; the JSON form escapes what JSON demands and nothing else.
-/

namespace MixedMarkup

namespace Text

/-- A character in the plain form. -/
def escapePlain (c : Char) : List Char :=
  if c == '\x00' then ['\\', '0']
  else if c == '\t' then ['\\', 't']
  else if c == '\r' then ['\\', 'r']
  else if c == '\n' then ['\\', 'n']
  else if c == '\x22' || c == '\\' then ['\\', c]
  else if isPrintable c then [c]
  else ['\\', 'u', '{'] ++ hexDigits c.toNat ++ ['}']

/-- The plain form of a text. -/
def quotePlain (text : List Char) : List Char := '\x22' :: text.flatMap escapePlain ++ ['\x22']

/-- A character in the JSON form. -/
def escapeJson (c : Char) : List Char :=
  if c == '\x22' || c == '\\' then ['\\', c]
  else if c == '\x08' then ['\\', 'b']
  else if c == '\x0c' then ['\\', 'f']
  else if c == '\n' then ['\\', 'n']
  else if c == '\r' then ['\\', 'r']
  else if c == '\t' then ['\\', 't']
  else if c.toNat < 0x20 then
    let digits := hexDigits c.toNat
    ['\\', 'u'] ++ List.replicate (4 - digits.length) '0' ++ digits
  else [c]

/-- The JSON form of a text. -/
def quoteJson (text : List Char) : List Char := '\x22' :: text.flatMap escapeJson ++ ['\x22']

end Text

end MixedMarkup
