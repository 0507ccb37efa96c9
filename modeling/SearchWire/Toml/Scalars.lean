import SearchWire.Binary64.Read
import SearchWire.Toml.Basic
import SearchWire.Toml.Strings

/-!
# Reading truth values, numbers and dates

What begins with a digit or a sign is a date when four digits and a dash begin it,
a time of day when two digits and a colon do, and otherwise a number. A number with
a point or an exponent is a double, and any other is an integer of sixty-four bits;
underscores may stand between its digits. `Toml.scalar` reads all of them.
-/

namespace SearchWire

namespace Toml

/-! ## Digits -/

/-- A digit of an integer in a base. -/
def isDigitOf (base : Nat) (c : Char) : Bool :=
  (hexValue? c).any (· < base)

/-- The number of digits in a base. -/
def numberOf (base : Nat) (digits : List Char) : Nat :=
  digits.foldl (fun sum c => sum * base + (hexValue? c).getD 0) 0

/-- Puts a digit in front of those that are read. -/
def withDigit (c : Char) (read : List Char × List Char) : List Char × List Char :=
  (c :: read.1, read.2)

/-- Reads the digits after a digit. A single underscore may stand before each, and is left out. -/
def moreDigits (base : Nat) : List Char → List Char × List Char
  | '_' :: c :: rest =>
      if isDigitOf base c then withDigit c (moreDigits base rest) else ([], '_' :: c :: rest)
  | c :: rest => if isDigitOf base c then withDigit c (moreDigits base rest) else ([], c :: rest)
  | [] => ([], [])

/-- Reads digits, at least one. -/
def digits (base : Nat) : Reader (List Char)
  | c :: rest => if isDigitOf base c then some (withDigit c (moreDigits base rest)) else none
  | [] => none

/-- Reads the digits before a point: a zero, or digits that do not begin with one. -/
def wholeDigits : Reader (List Char)
  | '0' :: rest => some (['0'], rest)
  | text => digits 10 text

/-! ## Numbers -/

/-- Reads the point with the digits after it, when one stands here. -/
def fraction : Reader (List Char)
  | '.' :: rest => (digits 10 rest).map fun (read, after) => ('.' :: read, after)
  | text => some ([], text)

/-- Reads a sign, when one stands here. -/
def sign : List Char → List Char × List Char
  | '+' :: rest => (['+'], rest)
  | '-' :: rest => (['-'], rest)
  | text => ([], text)

/-- Reads an exponent with its letter, when one stands here. -/
def exponent : Reader (List Char)
  | [] => some ([], [])
  | c :: rest =>
      if c = 'e' || c = 'E' then
        let (mark, text) := sign rest
        (digits 10 text).map fun (read, after) => (c :: mark ++ read, after)
      else some ([], c :: rest)

/-- An integer of sixty-four bits. -/
def int64? (value : Int) : Option Value :=
  if -2 ^ 63 ≤ value ∧ value < 2 ^ 63 then some (.int value) else none

/-- A double that is not past the largest one. -/
def double? (value : Binary64) : Option Value :=
  if value = .infinite false then none else some (.float value)

/-- Reads a decimal number after its sign. -/
def decimal (negative : Bool) : Reader Value
  | 'i' :: 'n' :: 'f' :: rest => some (.float (.infinite negative), rest)
  | 'n' :: 'a' :: 'n' :: rest => some (.float (.nan negative), rest)
  | text => do
      let (whole, afterWhole) ← wholeDigits text
      let (part, afterPart) ← fraction afterWhole
      let (power, rest) ← exponent afterPart
      let value ←
        if part ++ power = [] then
          let magnitude : Int := numberOf 10 whole
          int64? (if negative then -magnitude else magnitude)
        else Binary64.readDecimal? negative (whole ++ part ++ power) >>= double?
      return (value, rest)

/-- Reads the digits of an integer in a base after its prefix. -/
def based (base : Nat) (text : List Char) : Option (Value × List Char) := do
  let (read, rest) ← digits base text
  let value ← int64? (numberOf base read)
  return (value, rest)

/-- Reads a number. -/
def number : Reader Value
  | '0' :: 'x' :: rest => based 16 rest
  | '0' :: 'o' :: rest => based 8 rest
  | '0' :: 'b' :: rest => based 2 rest
  | '+' :: rest => decimal false rest
  | '-' :: rest => decimal true rest
  | text => decimal false text

/-! ## Dates and times -/

/-- Reads a mark. -/
def mark? (expected : Char) : List Char → Option (List Char)
  | c :: rest => if c = expected then some rest else none
  | [] => none

/-- Reads a number of exactly `width` digits. -/
def field (width : Nat) (text : List Char) : Option (Nat × List Char) :=
  let read := text.take width
  if read.length = width && read.all (isDigitOf 10) then
    some (numberOf 10 read, text.drop width)
  else none

/-- Reads a number of two digits within bounds. -/
def fieldWithin (low high : Nat) (text : List Char) : Option (Nat × List Char) := do
  let (value, rest) ← field 2 text
  if low ≤ value ∧ value ≤ high then some (value, rest) else none

/-- Whether a text begins with digits and a mark after them. -/
def opensWith (width : Nat) (mark : Char) (text : List Char) : Bool :=
  ((field width text).bind fun (_, rest) => mark? mark rest).isSome

/-- Reads a date. -/
def date (text : List Char) : Option (CalendarDay × List Char) := do
  let (year, afterYear) ← field 4 text
  let (month, afterMonth) ← mark? '-' afterYear >>= fieldWithin 1 12
  let (day, rest) ← mark? '-' afterMonth >>= fieldWithin 1 (CalendarDay.monthLength year month)
  return (⟨year, month, day⟩, rest)

/-- Reads the point with the parts of a second after it, when they stand here. What is smaller than
a nanosecond is cut off. -/
def nanoseconds : List Char → Nat × List Char
  | '.' :: rest =>
      let read := rest.takeWhile (isDigitOf 10)
      if read = [] then (0, '.' :: rest)
      else
        let kept := read.take 9
        (numberOf 10 kept * 10 ^ (9 - kept.length), rest.dropWhile (isDigitOf 10))
  | text => (0, text)

/-- Reads a time of day. -/
def time (text : List Char) : Option (Time × List Char) := do
  let (hour, afterHour) ← fieldWithin 0 23 text
  let (minute, afterMinute) ← mark? ':' afterHour >>= fieldWithin 0 59
  let (second, afterSecond) ← mark? ':' afterMinute >>= fieldWithin 0 60
  let (nanosecond, rest) := nanoseconds afterSecond
  return (⟨hour, minute, second, nanosecond⟩, rest)

/-- Reads the hours and minutes of an offset after its sign. -/
def offsetMinutes (text : List Char) : Option (Int × List Char) := do
  let (hours, afterHours) ← fieldWithin 0 23 text
  let (minutes, rest) ← mark? ':' afterHours >>= fieldWithin 0 59
  return (hours * 60 + minutes, rest)

/-- Reads an offset, when one stands here. -/
def offset : Reader (Option Offset)
  | 'Z' :: rest => some (some .utc, rest)
  | 'z' :: rest => some (some .utc, rest)
  | '+' :: rest => (offsetMinutes rest).map fun (count, after) => (some (.minutes count), after)
  | '-' :: rest => (offsetMinutes rest).map fun (count, after) => (some (.minutes (-count)), after)
  | text => some (none, text)

/-- Reads the time of day after a date, when one stands here. -/
def clock (date : CalendarDay) : Reader Moment
  | [] => some (.day date, [])
  | delimiter :: rest =>
      if (delimiter = 'T' || delimiter = 't' || delimiter = ' ') && opensWith 2 ':' rest then do
        let (time, afterTime) ← time rest
        let (offset, after) ← offset afterTime
        return (.clock date time offset, after)
      else some (.day date, delimiter :: rest)

/-- Reads a date, a time of day or both. -/
def moment (text : List Char) : Option (Moment × List Char) :=
  if opensWith 4 '-' text then do
    let (date, rest) ← date text
    clock date rest
  else (time text).map fun (time, rest) => (.time time, rest)

/-! ## Scalars -/

/-- Reads a truth value, a number or a date. -/
def scalar : Reader Value
  | 't' :: 'r' :: 'u' :: 'e' :: rest => some (.bool true, rest)
  | 'f' :: 'a' :: 'l' :: 's' :: 'e' :: rest => some (.bool false, rest)
  | text =>
      if opensWith 4 '-' text || opensWith 2 ':' text then
        (moment text).map fun (value, rest) => (.moment value, rest)
      else number text

end Toml

end SearchWire
