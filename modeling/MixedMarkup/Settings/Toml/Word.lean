import MixedMarkup.Settings.Value
import MixedMarkup.Text.Digits
import MixedMarkup.Text.Reader
/-!
# TOML files — numbers, booleans and dates

The values that are written without quotes and brackets. An integer has to
fit 64 bits with a sign; a float is the number nearest to what is written.
Dates and times have no kind of their own: they are texts, always written
with a `T` between the two.
-/

namespace MixedMarkup

namespace Settings

namespace Toml

open Text Text.Reader

/-! ## Integers -/

/-- The digits of a number whose groups are joined by low lines, each between two digits. -/
def joinedDigits? (text : List Char) : Option (List Char) :=
  let groups := text.splitOn '_'
  if groups.any List.isEmpty then none else some groups.flatten

/-- The value of a number without a sign. -/
def unsigned? (text : List Char) : Option Nat :=
  match text with
  | '0' :: 'x' :: digits => (joinedDigits? digits).bind (digitsValue? 16)
  | '0' :: 'o' :: digits => (joinedDigits? digits).bind (digitsValue? 8)
  | '0' :: 'b' :: digits => (joinedDigits? digits).bind (digitsValue? 2)
  | _ => none

/-- The value of a decimal number, in which no zero comes first. -/
def decimal? (text : List Char) : Option Nat :=
  match text with
  | ['0'] => some 0
  | '0' :: _ => none
  | _ => (joinedDigits? text).bind (digitsValue? 10)

/-- The value of an integer of 64 bits. -/
def integer? (text : List Char) : Option Int :=
  let value : Option Int :=
    match text with
    | '-' :: digits => (decimal? digits).map fun n => -(n : Int)
    | '+' :: digits => (decimal? digits).map fun n => (n : Int)
    | _ => (unsigned? text <|> decimal? text).map fun n => (n : Int)
  value.filter fun n => -(maxInteger : Int) - 1 ≤ n && n ≤ maxInteger

/-! ## Floats -/

/-- A number after its sign, and the rest of the text. -/
def signed (text : List Char) : Bool × List Char :=
  match text with
  | '-' :: rest => (true, rest)
  | '+' :: rest => (false, rest)
  | _ => (false, text)

/-- The exponent that a text writes after its letter; zero for the empty text. -/
def exponent? : List Char → Option Int
  | [] => some 0
  | letter :: text =>
    if letter == 'e' || letter == 'E' then
      let (negative, digits) := signed text
      ((joinedDigits? digits).bind (digitsValue? 10)).map fun n => if negative then -n else n
    else none

/-- The number nearest to digits times a power of ten. An exponent that leaves the range of floats
whatever the digits are is cut, so that the power can be computed. -/
def nearestFloat (digits : Nat) (exponent : Int) : Float :=
  let most := (Nat.toDigits 10 digits).length + 400
  .ofScientific digits (exponent < 0) (min exponent.natAbs most)

/-- The value of a decimal number with a fraction, an exponent or both. Only a negative one may be
too large to be finite. -/
def fractional? (negative : Bool) (text : List Char) : Option Float := do
  let isNumeral (c : Char) : Bool := c.isDigit || c == '_'
  let (whole, rest) := text.span isNumeral
  let _ ← decimal? whole
  let digits ← joinedDigits? whole
  let (places, rest) ← match rest with
    | '.' :: rest => (joinedDigits? (rest.takeWhile isNumeral)).map (·, rest.dropWhile isNumeral)
    | 'e' :: _ | 'E' :: _ => some ([], rest)
    | _ => none
  let value ← digitsValue? 10 (digits ++ places)
  let size := nearestFloat value ((← exponent? rest) - places.length)
  if negative then return -size
  if size.isInf then failure else return size

/-- The value of a float. -/
def float? (text : List Char) : Option Float :=
  match signed text with
  | (negative, ['i', 'n', 'f']) => some (if negative then -1 / 0 else 1 / 0)
  | (_, ['n', 'a', 'n']) => some (0 / 0)
  | (negative, text) => fractional? negative text

/-! ## Dates and times -/

/-- Read a number of `count` digits that lies between bounds. -/
def digitsWithin (count least most : Nat) : Reader (List Char) := do
  let digits := (← ahead).take count
  for _ in digits do
    let _ ← next
  match digitsValue? 10 digits with
  | some n => if digits.length = count ∧ least ≤ n ∧ n ≤ most then return digits else failure
  | none => failure

/-- The number of days of a month. -/
def daysOf (year month : Nat) : Nat :=
  if month = 2 then
    if year % 4 = 0 ∧ (year % 100 ≠ 0 ∨ year % 400 = 0) then 29 else 28
  else if [4, 6, 9, 11].contains month then 30
  else 31

/-- Read a date. -/
def date : Reader (List Char) := do
  let year ← digitsWithin 4 0 9999
  expect "-"
  let month ← digitsWithin 2 1 12
  expect "-"
  let most := daysOf ((digitsValue? 10 year).getD 0) ((digitsValue? 10 month).getD 0)
  let day ← digitsWithin 2 1 most
  return year ++ '-' :: month ++ '-' :: day

/-- Read the fraction of a second, to nine places and without zeros at its end. -/
def secondFraction : Reader (List Char) := do
  expect "."
  let places := ((← many1 Char.isDigit).take 9).reverse.dropWhile (· == '0')
  return if places.isEmpty then [] else '.' :: places.reverse

/-- Read a time of day. -/
def time : Reader (List Char) := do
  let hour ← digitsWithin 2 0 23
  expect ":"
  let minute ← digitsWithin 2 0 59
  expect ":"
  let second ← digitsWithin 2 0 60
  let fraction ← secondFraction <|> pure []
  return hour ++ ':' :: minute ++ ':' :: second ++ fraction

/-- Read the distance from universal time. -/
def offset : Reader (List Char) := do
  if ← accept "Z" then return ['Z']
  if ← accept "z" then return ['Z']
  let negative ← accept "-"
  unless negative do expect "+"
  let hour ← digitsWithin 2 0 23
  expect ":"
  let minute ← digitsWithin 2 0 59
  let sign := if negative && (hour ++ minute).any (· != '0') then '-' else '+'
  return sign :: hour ++ ':' :: minute

/-- Read the time that follows a date, with or without its distance from universal time. -/
def timeOfDate : Reader (List Char) := do
  let mark ← next
  unless mark == 'T' || mark == 't' || mark == ' ' do failure
  let timeOfDay ← time
  return 'T' :: timeOfDay ++ (← offset <|> pure [])

/-- Read a date, a time, or both. -/
def dateTime : Reader (List Char) :=
  (do
    let day ← date
    return day ++ (← timeOfDate <|> pure [])) <|> time

/-! ## Words -/

/-- Whether a character may stand in a number or a boolean. -/
def isWordChar (c : Char) : Bool := c.isAlphanum || c == '_' || c == '+' || c == '-' || c == '.'

/-- Read a number or a boolean. -/
def number : Reader Value := do
  let word ← many1 isWordChar
  if word == "true".toList then return .bool true
  if word == "false".toList then return .bool false
  match integer? word, float? word with
  | some n, _ => return .int n
  | none, some x => return .float x
  | none, none => failure

/-- Read a value that is neither a string nor in brackets. -/
def word : Reader Value := (do return Value.text (String.ofList (← dateTime))) <|> number

end Toml

end Settings

end MixedMarkup
