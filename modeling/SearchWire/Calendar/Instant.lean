import SearchWire.Binary64.Decimal

/-!
# Instants of universal time

An instant is a number of seconds since the start of 1970 and of nanoseconds in
that second; a second that ends a minute may be a leap second, which has
nanoseconds from one thousand million on. `Instant.text` writes the proleptic
Gregorian date and the time of day with three digits after the second, the rest
being cut off.
-/

namespace SearchWire

/-- A point of universal time. -/
structure Instant where
  seconds : Int
  nanoseconds : Nat
deriving DecidableEq

/-- A day of the proleptic Gregorian calendar. -/
structure CalendarDay where
  year : Int
  month : Nat
  day : Nat
deriving DecidableEq

namespace CalendarDay

/-- Every fourth year is a leap year, of those that end a century only every fourth. -/
def IsLeapYear (year : Int) : Prop :=
  year % 4 = 0 ∧ (year % 100 = 0 → year % 400 = 0)

instance (year : Int) : Decidable (IsLeapYear year) :=
  inferInstanceAs (Decidable (_ ∧ _))

/-- The number of days of a month. -/
def monthLength (year : Int) (month : Nat) : Nat :=
  if month = 2 then if IsLeapYear year then 29 else 28
  else if month = 4 ∨ month = 6 ∨ month = 9 ∨ month = 11 then 30
  else 31

/-- The day of a number of days since the start of 1970. Years are counted from March, so that the
leap day is the last day of a year, in eras of 400 years or 146097 days. -/
def ofDays (days : Int) : CalendarDay :=
  let shifted := days + 719468
  let era := shifted.fdiv 146097
  let dayOfEra := (shifted.fmod 146097).toNat
  let yearOfEra := (dayOfEra - dayOfEra / 1460 + dayOfEra / 36524 - dayOfEra / 146096) / 365
  let dayOfYear := dayOfEra - (365 * yearOfEra + yearOfEra / 4 - yearOfEra / 100)
  let monthFromMarch := (5 * dayOfYear + 2) / 153
  let day := dayOfYear - (153 * monthFromMarch + 2) / 5 + 1
  let month := if monthFromMarch < 10 then monthFromMarch + 3 else monthFromMarch - 9
  let year := (yearOfEra : Int) + era * 400 + (if month ≤ 2 then 1 else 0)
  ⟨year, month, day⟩

end CalendarDay

namespace Instant

/-- A number with at least the given count of digits. -/
def padded (width value : Nat) : List Char :=
  let digits := Decimal.digitsOf value
  List.replicate (width - digits.length) '0' ++ digits

/-- A year: four digits from 0 to 9999, and a sign before at least four digits elsewhere. -/
def yearText (year : Int) : List Char :=
  if 0 ≤ year ∧ year ≤ 9999 then padded 4 year.toNat
  else (if year < 0 then '-' else '+') :: padded 4 year.natAbs

/-- The date and time of an instant, to the millisecond. -/
def text (instant : Instant) : String :=
  let days := instant.seconds.fdiv 86400
  let secondOfDay := (instant.seconds.fmod 86400).toNat
  let date := CalendarDay.ofDays days
  let leap := if 1000000000 ≤ instant.nanoseconds then 1 else 0
  let nanoseconds := instant.nanoseconds - leap * 1000000000
  String.ofList
    (yearText date.year ++ '-' :: padded 2 date.month ++ '-' :: padded 2 date.day ++
      'T' :: padded 2 (secondOfDay / 3600) ++ ':' :: padded 2 (secondOfDay / 60 % 60) ++
      ':' :: padded 2 (secondOfDay % 60 + leap) ++
      '.' :: padded 3 (nanoseconds / 1000000) ++ ['Z'])

end Instant

end SearchWire
