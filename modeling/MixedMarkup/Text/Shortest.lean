/-!
# Text — shortest decimals

A floating-point number in decimal digits, in as few as read back to it. Of
two decimals with as few digits the nearer one is written, and halfway
between them the greater one. The digits are written out without an
exponent, and without a point where nothing stands behind it.
-/

namespace MixedMarkup

namespace Text

/-- A number in decimal digits: `10 ^ place` times a natural number. -/
structure Decimal where
  digits : Nat
  place : Int
  deriving DecidableEq

namespace Decimal

/-- The floating-point number that a decimal is read as, which is the nearest one. -/
def toFloat (d : Decimal) : Float := .ofScientific d.digits (d.place < 0) d.place.natAbs

/-- A decimal with all its digits, and zeros in the places that it has none for. -/
def text (d : Decimal) : List Char :=
  let digits := Nat.toDigits 10 d.digits
  if 0 ≤ d.place then digits ++ List.replicate d.place.toNat '0'
  else
    let behind := d.place.natAbs
    let filled := List.replicate (behind + 1 - digits.length) '0' ++ digits
    filled.take (filled.length - behind) ++ '.' :: filled.drop (filled.length - behind)

end Decimal

/-- How often the smallest positive number goes into one. -/
def scale : Nat := Nat.pow 2 1074

/-- The size of a finite number, as a multiple of the smallest positive one. -/
def scaledSize (x : Float) : Nat :=
  let bits := x.toBits.toNat
  let hidden := Nat.pow 2 52
  let fraction := bits % hidden
  match bits / hidden % Nat.pow 2 11 with
  | 0 => fraction
  | exponent + 1 => (hidden + fraction) * Nat.pow 2 exponent

/-- The decimal with its last digit at a place that reads back to the size of a number, if there
is one. It is one of the two neighbours of the size at that place. -/
def decimalAt? (x : Float) (place : Int) : Option Decimal :=
  let numerator := scaledSize x * Nat.pow 10 (-place).toNat
  let denominator := scale * Nat.pow 10 place.toNat
  let low := numerator / denominator
  let readsBack (digits : Nat) : Bool := (Decimal.mk digits place).toFloat == x.abs
  match readsBack low, readsBack (low + 1) with
  | true, true =>
    if (2 * low + 1) * denominator ≤ 2 * numerator then some ⟨low + 1, place⟩
    else some ⟨low, place⟩
  | true, false => some ⟨low, place⟩
  | false, true => some ⟨low + 1, place⟩
  | false, false => none

/-- The shortest decimal that reads back to the size of a finite number. The places are tried
from the left, starting before the digits of the whole part; at the place `-324` at the latest
there is one. -/
def shortestDecimal (x : Float) : Decimal :=
  if scaledSize x = 0 then ⟨0, 0⟩
  else
    let first := (Nat.toDigits 10 (scaledSize x / scale)).length
    ((List.range (first + 325)).findSome? fun (i : Nat) => decimalAt? x (first - i)).getD ⟨0, 0⟩

/-- A floating-point number as a text. -/
def floatText (x : Float) : String :=
  if x.isNaN then "NaN"
  else
    let sign := if x.toBits.toNat < Nat.pow 2 63 then "" else "-"
    sign ++ if x.isInf then "inf" else String.ofList (shortestDecimal x).text

example : floatText (0.1 + 0.2) = "0.30000000000000004" := by decide +kernel

end Text

end MixedMarkup
