import Mathlib.Order.Monotone.Basic
import Mathlib.Tactic.IntervalCases
import SearchWire.Calendar.Instant

/-!
# The days of the Gregorian calendar

`CalendarDay.next` is the day after a day by the lengths of the months and the
leap years. The numbered days start at the first of January 1970
(`ofDays_zero`), and the day of the next number is the next day, before 1970 as
after it (`ofDays_add_one`), so `ofDays` is the proleptic calendar. A larger
number gives a later day (`ofDays_before`).

A day is found by its March year, which ends with the leap day: `ofDays_ofMarch`
reads the year and the day of the year off the number of days, and
`ofMarch_monthStart` the month and its day off the day of the year.
-/

namespace SearchWire

namespace CalendarDay

/-! ## The rules of the calendar -/

/-- A month and a day that exist. -/
structure IsDate (date : CalendarDay) : Prop where
  month_pos : 1 ≤ date.month
  month_le : date.month ≤ 12
  day_pos : 1 ≤ date.day
  day_le : date.day ≤ monthLength date.year date.month

/-- The day after a day. -/
def next (date : CalendarDay) : CalendarDay :=
  if date.day < monthLength date.year date.month then ⟨date.year, date.month, date.day + 1⟩
  else if date.month < 12 then ⟨date.year, date.month + 1, 1⟩
  else ⟨date.year + 1, 1, 1⟩

/-- One day is earlier than another, by the year, then by the month and then by the day. -/
def Before (first second : CalendarDay) : Prop :=
  first.year < second.year ∨ first.year = second.year ∧
    (first.month < second.month ∨ first.month = second.month ∧ first.day < second.day)

instance : IsTrans CalendarDay Before where
  trans first second third := by
    unfold Before
    omega

theorem monthLength_pos (year : Int) (month : Nat) : 0 < monthLength year month := by
  unfold monthLength
  split_ifs <;> omega

theorem monthLength_le (year : Int) (month : Nat) : monthLength year month ≤ 31 := by
  unfold monthLength
  split_ifs <;> omega

/-- A day comes before the next day. -/
theorem before_next (date : CalendarDay) : date.Before date.next := by
  unfold next
  split_ifs
  · exact .inr ⟨rfl, .inr ⟨rfl, Nat.lt_succ_self _⟩⟩
  · exact .inr ⟨rfl, .inl (Nat.lt_succ_self _)⟩
  · exact .inl (Int.lt_succ _)

/-! ## Years that start with March -/

/-- The number of days from the March of a year to the next March. -/
def marchYearLength (year : Int) : Nat :=
  if IsLeapYear (year + 1) then 366 else 365

/-- The number of days from the March of the year 0 to the March of a year. -/
def marchYearStart (year : Int) : Int :=
  365 * year + year / 4 - year / 100 + year / 400

/-- The number of days from March to a month; months are counted from March. -/
def monthStart (month : Nat) : Nat :=
  (153 * month + 2) / 5

/-- The number, counted from January, of a month that is counted from March. -/
def monthOfMarch (month : Nat) : Nat :=
  if month < 10 then month + 3 else month - 9

/-- The year to which a month belongs that is counted from the March of a year. -/
def yearOfMarch (year : Int) (month : Nat) : Int :=
  if month < 10 then year else year + 1

/-- The day that comes a number of days after the start of March. -/
def ofMarch (year : Int) (dayOfYear : Nat) : CalendarDay where
  year := yearOfMarch year ((5 * dayOfYear + 2) / 153)
  month := monthOfMarch ((5 * dayOfYear + 2) / 153)
  day := dayOfYear - monthStart ((5 * dayOfYear + 2) / 153) + 1

theorem marchYearLength_bounds (year : Int) :
    365 ≤ marchYearLength year ∧ marchYearLength year ≤ 366 := by
  unfold marchYearLength
  split_ifs <;> omega

theorem marchYearStart_add_one (year : Int) :
    marchYearStart (year + 1) = marchYearStart year + marchYearLength year := by
  unfold marchYearStart marchYearLength
  split_ifs with hleap
  · unfold IsLeapYear at hleap
    omega
  · unfold IsLeapYear at hleap
    omega

/-- All months but February, the last one, end where the next one starts. -/
theorem monthStart_add_one (year : Int) {month : Nat} (h : month < 11) :
    monthStart (month + 1) =
      monthStart month + monthLength (yearOfMarch year month) (monthOfMarch month) := by
  interval_cases month <;> rfl

/-- February ends with its year. -/
theorem marchYearLength_eq (year : Int) :
    marchYearLength year = monthStart 11 + monthLength (yearOfMarch year 11) (monthOfMarch 11) := by
  have hlength : monthLength (yearOfMarch year 11) (monthOfMarch 11) =
      if IsLeapYear (year + 1) then 29 else 28 := rfl
  rw [hlength, marchYearLength]
  split_ifs <;> rfl

/-- The days of a month come before the next month. -/
theorem lt_monthStart_add_one {year : Int} {month place : Nat} (hmonth : month < 12)
    (hplace : place < monthLength (yearOfMarch year month) (monthOfMarch month)) :
    monthStart month + place < monthStart (month + 1) := by
  by_cases hlast : month < 11
  · rw [monthStart_add_one year hlast]
    exact Nat.add_lt_add_left hplace _
  · obtain rfl : month = 11 := by omega
    have hlength := marchYearLength_eq year
    have hbounds := marchYearLength_bounds year
    have hend : monthStart (11 + 1) = 367 := rfl
    omega

/-- A day of a month is found in that month. -/
theorem ofMarch_monthStart {year : Int} {month place : Nat} (hmonth : month < 12)
    (hplace : place < monthLength (yearOfMarch year month) (monthOfMarch month)) :
    ofMarch year (monthStart month + place) =
      ⟨yearOfMarch year month, monthOfMarch month, place + 1⟩ := by
  have hbefore := lt_monthStart_add_one hmonth hplace
  have hfound : (5 * (monthStart month + place) + 2) / 153 = month := by
    unfold monthStart at hbefore ⊢
    omega
  rw [ofMarch, hfound, Nat.add_sub_cancel_left]

/-- Every day of a year is a day of a month. -/
theorem exists_monthStart {year : Int} {dayOfYear : Nat} (h : dayOfYear < marchYearLength year) :
    ∃ month place, month < 12 ∧
      place < monthLength (yearOfMarch year month) (monthOfMarch month) ∧
      dayOfYear = monthStart month + place := by
  have hbounds := marchYearLength_bounds year
  obtain ⟨month, hmonth⟩ : ∃ month, (5 * dayOfYear + 2) / 153 = month := ⟨_, rfl⟩
  have hstart : monthStart month ≤ dayOfYear ∧ dayOfYear < monthStart (month + 1) := by
    unfold monthStart
    omega
  refine ⟨month, dayOfYear - monthStart month, by omega, ?_, by omega⟩
  by_cases hlast : month < 11
  · have hnext := monthStart_add_one year hlast
    omega
  · obtain rfl : month = 11 := by omega
    have hend := marchYearLength_eq year
    omega

/-- Within a March year the next day is the day after. -/
theorem next_ofMarch {year : Int} {dayOfYear : Nat} (h : dayOfYear + 1 < marchYearLength year) :
    (ofMarch year dayOfYear).next = ofMarch year (dayOfYear + 1) := by
  obtain ⟨month, place, hmonth, hplace, rfl⟩ := exists_monthStart (Nat.lt_of_succ_lt h)
  rw [ofMarch_monthStart hmonth hplace]
  by_cases hwithin : place + 1 < monthLength (yearOfMarch year month) (monthOfMarch month)
  · rw [Nat.add_assoc, ofMarch_monthStart hmonth hwithin]
    exact if_pos hwithin
  · have hlast : month < 11 := by
      by_contra hnot
      obtain rfl : month = 11 := by omega
      have hend := marchYearLength_eq year
      omega
    have hstart := monthStart_add_one year hlast
    have hday : monthStart month + place + 1 = monthStart (month + 1) + 0 := by omega
    rw [hday, ofMarch_monthStart (by omega) (monthLength_pos _ _)]
    refine (if_neg hwithin).trans ?_
    interval_cases month <;> rfl

/-- The last day of a March year is followed by the first of March. -/
theorem next_ofMarch_last {year : Int} {dayOfYear : Nat}
    (h : dayOfYear + 1 = marchYearLength year) :
    (ofMarch year dayOfYear).next = ofMarch (year + 1) 0 := by
  have hbounds := marchYearLength_bounds year
  have hend := marchYearLength_eq year
  have hfebruary : monthStart 11 = 337 := rfl
  obtain ⟨place, rfl⟩ : ∃ place, dayOfYear = monthStart 11 + place :=
    ⟨dayOfYear - monthStart 11, by omega⟩
  rw [ofMarch_monthStart (by decide) (by omega)]
  have hlast : ¬ place + 1 < monthLength (yearOfMarch year 11) (monthOfMarch 11) := by omega
  exact if_neg hlast

/-! ## The day of a number of days -/

/-- The days of an era before one of its years: 400 years have 146097 days. -/
theorem marchYearStart_era (era : Int) {century cycle rest : Nat} (hcentury : century < 4)
    (hcycle : cycle < 25) (hrest : rest < 4) :
    marchYearStart ((100 * century + 4 * cycle + rest : Nat) + era * 400) =
      146097 * era + (36524 * century + 1461 * cycle + 365 * rest : Nat) := by
  unfold marchYearStart
  omega

/-- A March year with a leap day is the last of its cycle, and when it ends a century it ends the
era. -/
theorem cycle_of_leapDay {era : Int} {century cycle rest day : Nat} (hcentury : century < 4)
    (hrest : rest < 4)
    (h : day < marchYearLength ((100 * century + 4 * cycle + rest : Nat) + era * 400)) :
    day < 365 ∨ day = 365 ∧ rest = 3 ∧ (cycle = 24 → century = 3) := by
  unfold marchYearLength at h
  split_ifs at h with hleap
  · unfold IsLeapYear at hleap
    omega
  · omega

/-- The year of an era is read off the day of the era. -/
theorem yearOfEra_eq {century cycle rest day dayOfEra : Nat} (hcentury : century < 4)
    (hcycle : cycle < 25) (hrest : rest < 4)
    (hday : day < 365 ∨ day = 365 ∧ rest = 3 ∧ (cycle = 24 → century = 3))
    (h : dayOfEra = 36524 * century + 1461 * cycle + 365 * rest + day) :
    (dayOfEra - dayOfEra / 1460 + dayOfEra / 36524 - dayOfEra / 146096) / 365 =
      100 * century + 4 * cycle + rest := by
  by_cases hlast : day = 365 ∧ cycle = 24
  · obtain ⟨rfl, rfl⟩ := hlast
    obtain ⟨rfl, rfl⟩ : rest = 3 ∧ century = 3 := by omega
    rw [h]
  · have hera : dayOfEra / 146096 = 0 := Nat.div_eq_of_lt (by omega)
    have hcenturies : dayOfEra / 36524 = century := Nat.div_eq_of_lt_le (by omega) (by omega)
    -- a leap day is counted before its year ends, but not before its first day is past
    obtain ⟨leap, hfirst, hlast, hfour⟩ : ∃ leap, leap ≤ day ∧ day < 365 + leap ∧
        dayOfEra / 1460 = 25 * century + cycle + leap := by
      by_cases hlate : 24 * century + cycle + 365 * rest + day < 1460
      · exact ⟨0, by omega, by omega, Nat.div_eq_of_lt_le (by omega) (by omega)⟩
      · exact ⟨1, by omega, by omega, Nat.div_eq_of_lt_le (by omega) (by omega)⟩
    rw [hera, hcenturies, hfour]
    exact Nat.div_eq_of_lt_le (by omega) (by omega)

/-- The day of an era is found in the March year that is read off it. -/
theorem ofDays_era (era : Int) {yearOfEra dayOfYear dayOfEra : Nat}
    (hyear : (dayOfEra - dayOfEra / 1460 + dayOfEra / 36524 - dayOfEra / 146096) / 365 = yearOfEra)
    (hplace : dayOfEra - (365 * yearOfEra + yearOfEra / 4 - yearOfEra / 100) = dayOfYear)
    (hday : dayOfYear < 366) (hera : dayOfEra < 146097) :
    ofDays (146097 * era + dayOfEra - 719468) = ofMarch (yearOfEra + era * 400) dayOfYear := by
  have hfloor : (146097 * era + (dayOfEra : Int)).fdiv 146097 = era := by
    rw [Int.fdiv_eq_ediv_of_nonneg _ (by decide)]
    omega
  have hrest : ((146097 * era + (dayOfEra : Int)).fmod 146097).toNat = dayOfEra := by
    rw [Int.fmod_eq_emod_of_nonneg _ (by decide)]
    omega
  have hmonth : (5 * dayOfYear + 2) / 153 < 12 := by omega
  simp only [ofDays, Int.sub_add_cancel, hfloor, hrest, hyear, hplace, ofMarch, yearOfMarch,
    monthOfMarch, monthStart, CalendarDay.mk.injEq, and_true]
  -- January and February belong to the year after the March
  generalize (5 * dayOfYear + 2) / 153 = month at hmonth
  split_ifs <;> omega

/-- The day of a number of days is found in its March year. -/
theorem ofDays_ofMarch {year : Int} {dayOfYear : Nat} (h : dayOfYear < marchYearLength year) :
    ofDays (marchYearStart year + dayOfYear - 719468) = ofMarch year dayOfYear := by
  obtain ⟨era, century, cycle, rest, hcentury, hcycle, hrest, rfl⟩ :
      ∃ (era : Int) (century cycle rest : Nat), century < 4 ∧ cycle < 25 ∧ rest < 4 ∧
        year = (100 * century + 4 * cycle + rest : Nat) + era * 400 :=
    ⟨year / 400, (year % 400 / 100).toNat, (year % 100 / 4).toNat, (year % 4).toNat,
      by omega, by omega, by omega, by omega⟩
  have hday := cycle_of_leapDay hcentury hrest h
  have hbounds := marchYearLength_bounds ((100 * century + 4 * cycle + rest : Nat) + era * 400)
  obtain ⟨dayOfEra, hdayOfEra⟩ :
      ∃ dayOfEra, dayOfEra = 36524 * century + 1461 * cycle + 365 * rest + dayOfYear := ⟨_, rfl⟩
  have hyear := yearOfEra_eq hcentury hcycle hrest hday hdayOfEra
  have hplace : dayOfEra - (365 * (100 * century + 4 * cycle + rest) +
      (100 * century + 4 * cycle + rest) / 4 - (100 * century + 4 * cycle + rest) / 100) =
        dayOfYear := by
    have hfours : (100 * century + 4 * cycle + rest) / 4 = 25 * century + cycle := by omega
    have hhundreds : (100 * century + 4 * cycle + rest) / 100 = century := by omega
    rw [hfours, hhundreds]
    omega
  rw [← ofDays_era era hyear hplace (by omega) (by omega),
    marchYearStart_era era hcentury hcycle hrest]
  exact congrArg ofDays (by omega)

/-- Every number of days is that of a day of a March year. -/
theorem exists_marchYear (days : Int) :
    ∃ year, ∃ dayOfYear : Nat, dayOfYear < marchYearLength year ∧
      days = marchYearStart year + dayOfYear - 719468 := by
  induction days using Int.induction_on with
  | zero => exact ⟨1969, 306, by decide, by decide⟩
  | succ days ih =>
      obtain ⟨year, dayOfYear, hday, hdays⟩ := ih
      by_cases hwithin : dayOfYear + 1 < marchYearLength year
      · exact ⟨year, dayOfYear + 1, hwithin, by omega⟩
      · have hstart := marchYearStart_add_one year
        have hbounds := marchYearLength_bounds (year + 1)
        exact ⟨year + 1, 0, by omega, by omega⟩
  | pred days ih =>
      obtain ⟨year, dayOfYear, hday, hdays⟩ := ih
      by_cases hfirst : 0 < dayOfYear
      · exact ⟨year, dayOfYear - 1, by omega, by omega⟩
      · have hstart := marchYearStart_add_one (year - 1)
        rw [Int.sub_add_cancel] at hstart
        have hbounds := marchYearLength_bounds (year - 1)
        exact ⟨year - 1, marchYearLength (year - 1) - 1, by omega, by omega⟩

/-- The days are counted from the first of January 1970. -/
theorem ofDays_zero : ofDays 0 = ⟨1970, 1, 1⟩ := by
  decide

/-- The day of the next number is the next day. -/
theorem ofDays_add_one (days : Int) : ofDays (days + 1) = (ofDays days).next := by
  obtain ⟨year, dayOfYear, hday, rfl⟩ := exists_marchYear days
  rw [ofDays_ofMarch hday]
  by_cases hwithin : dayOfYear + 1 < marchYearLength year
  · rw [next_ofMarch hwithin, ← ofDays_ofMarch hwithin]
    exact congrArg ofDays (by omega)
  · have hlast : dayOfYear + 1 = marchYearLength year := by omega
    have hstart := marchYearStart_add_one year
    have hfirst : 0 < marchYearLength (year + 1) := by
      have hbounds := marchYearLength_bounds (year + 1)
      omega
    rw [next_ofMarch_last hlast, ← ofDays_ofMarch hfirst]
    exact congrArg ofDays (by omega)

/-- The day of a number of days exists in the calendar. -/
theorem isDate_ofDays (days : Int) : (ofDays days).IsDate := by
  obtain ⟨year, dayOfYear, hday, rfl⟩ := exists_marchYear days
  obtain ⟨month, place, hmonth, hplace, rfl⟩ := exists_monthStart hday
  rw [ofDays_ofMarch hday, ofMarch_monthStart hmonth hplace]
  have hnumber : 1 ≤ monthOfMarch month ∧ monthOfMarch month ≤ 12 := by
    unfold monthOfMarch
    split_ifs <;> omega
  exact ⟨hnumber.1, hnumber.2, Nat.succ_pos place, hplace⟩

/-- A larger number of days is a later day. -/
theorem ofDays_before {first second : Int} (h : first < second) :
    (ofDays first).Before (ofDays second) := by
  refine Int.rel_of_forall_rel_succ_of_lt Before (fun days => ?_) h
  rw [ofDays_add_one]
  exact before_next (ofDays days)

end CalendarDay

end SearchWire
