import SearchWire.Proofs.Calendar.Gregorian
import SearchWire.Proofs.Request.Locations

/-!
# The order of written instants

An instant is written as numbers of fixed widths, from the year down to the
millisecond, with a mark after each. Numbers of one width are ordered as their
digits are (`padded_append_lt`), so texts of one layout are ordered as the lists
of their numbers (`fieldsText_lt`), and these as the instants
(`Instant.fields_lt`): by the calendar between two days and by the clock within
one. `DateRangeBuckets.betweenInstants_ordered` says so of the bounds of a range
between two instants.
-/

namespace SearchWire

open Json

/-! ## Numbers of a fixed width -/

namespace Instant

/-- A number of one digit. -/
theorem padded_one {n : Nat} (h : n < 10) : padded 1 n = [Nat.digitChar n] := by
  rw [padded, Decimal.digitsOf, Nat.toDigits_of_lt_base h]
  rfl

/-- The last digit of a number is written after the number of its other digits. -/
theorem padded_succ (width n : Nat) :
    padded (width + 2) n = padded (width + 1) (n / 10) ++ [Nat.digitChar (n % 10)] := by
  by_cases hsmall : n < 10
  · have htens : n / 10 = 0 := Nat.div_eq_of_lt hsmall
    have hzeros : padded (width + 1) 0 = List.replicate (width + 1) '0' :=
      (List.replicate_succ' ..).symm
    rw [htens, hzeros, Nat.mod_eq_of_lt hsmall, padded, Decimal.digitsOf,
      Nat.toDigits_of_lt_base hsmall]
    rfl
  · have hdigits : Decimal.digitsOf n =
        Decimal.digitsOf (n / 10) ++ [Nat.digitChar (n % 10)] := by
      have hlast : n % 10 < 10 := Nat.mod_lt n (by decide)
      have hall := Nat.toDigits_append_toDigits (b := 10) (by decide)
        (show 0 < n / 10 by omega) hlast
      rw [Nat.toDigits_of_lt_base hlast, Nat.div_add_mod] at hall
      exact hall.symm
    have hzeros : width + 2 - ((Decimal.digitsOf (n / 10)).length + 1) =
        width + 1 - (Decimal.digitsOf (n / 10)).length := Nat.add_sub_add_right _ 1 _
    rw [padded, padded, hdigits, List.length_append, List.length_singleton, hzeros,
      List.append_assoc]

/-- Of two numbers of one width the smaller comes first, whatever follows them. -/
theorem padded_append_lt {width m n : Nat} (hfits : n < 10 ^ width) (h : m < n)
    (rest other : List Char) : padded width m ++ rest < padded width n ++ other := by
  -- the last digits count only when the numbers of the other digits are equal
  induction width generalizing m n rest other with
  | zero => omega
  | succ width ih =>
      have hdigit {a b : Nat} (hb : b < 10) (hab : a < b) (rest other : List Char) :
          Nat.digitChar a :: rest < Nat.digitChar b :: other := by
        refine List.cons_lt_cons_iff.2 (.inl ?_)
        rw [Char.lt_def, UInt32.lt_iff_toNat_lt]
        have ha := Nat.toNat_digitChar_of_lt_ten (Nat.lt_trans hab hb)
        have hb := Nat.toNat_digitChar_of_lt_ten hb
        simp only [Char.toNat] at ha hb
        omega
      cases width with
      | zero =>
          rw [padded_one (by omega), padded_one (by omega)]
          exact hdigit (by omega) h rest other
      | succ width =>
          rw [padded_succ, padded_succ, List.append_assoc, List.append_assoc]
          by_cases htens : m / 10 < n / 10
          · exact ih (by omega) htens _ _
          · have hsame : m / 10 = n / 10 := by omega
            rw [hsame]
            exact List.append_left_lt (hdigit (by omega) (by omega) rest other)

/-- Numbers of fixed widths, each with the mark after it. -/
def fieldsText (layout : List (Nat × Char)) (values : List Nat) : List Char :=
  (List.zipWith (fun field value => padded field.1 value ++ [field.2]) layout values).flatten

/-- Texts of one layout are ordered as the lists of their numbers. -/
theorem fieldsText_lt {layout : List (Nat × Char)} {values others : List Nat}
    (hfits : List.Forall₂ (fun field other => other < 10 ^ field.1) layout others)
    (hlength : values.length = others.length) (h : values < others) :
    fieldsText layout values < fieldsText layout others := by
  induction hfits generalizing values with
  | nil =>
      rw [List.length_eq_zero_iff.1 hlength] at h
      exact absurd h (List.lt_irrefl _)
  | @cons field other layout others hfit hrest ih =>
      obtain ⟨value, values, rfl⟩ := List.exists_cons_of_length_eq_add_one hlength
      simp only [fieldsText, List.zipWith_cons_cons, List.flatten_cons, List.append_assoc]
      rcases List.cons_lt_cons_iff.1 h with hvalue | ⟨rfl, hvalues⟩
      · exact padded_append_lt hfit hvalue _ _
      · exact List.append_left_lt
          (List.append_left_lt (ih (Nat.succ.inj hlength) hvalues))

/-! ## The numbers of an instant -/

/-- The number of the day of an instant. -/
def dayNumber (instant : Instant) : Int :=
  instant.seconds.fdiv 86400

/-- The day of an instant. -/
def date (instant : Instant) : CalendarDay :=
  .ofDays instant.dayNumber

/-- The number of seconds since the start of the day. -/
def secondOfDay (instant : Instant) : Nat :=
  (instant.seconds.fmod 86400).toNat

/-- The number of whole milliseconds since the start of the second. -/
def milliseconds (instant : Instant) : Nat :=
  instant.nanoseconds / 1000000

/-- Whether the instant lies in a leap second, as a number. -/
def leap (instant : Instant) : Nat :=
  if 1000000000 ≤ instant.nanoseconds then 1 else 0

/-- An instant of the years 0 to 9999. Only the last second of a minute can be followed by a leap
second, whose nanoseconds are counted on from one thousand million. -/
structure Regular (instant : Instant) : Prop where
  year_nonneg : 0 ≤ instant.date.year
  year_le : instant.date.year ≤ 9999
  nanoseconds_lt : instant.nanoseconds < 2000000000
  leap_last : 1000000000 ≤ instant.nanoseconds → instant.seconds % 60 = 59

/-- Instants are compared by the second and then by the nanosecond. -/
instance : LE Instant where
  le first second := first.seconds < second.seconds ∨
    first.seconds = second.seconds ∧ first.nanoseconds ≤ second.nanoseconds

/-- The numbers of the date. -/
def dateFields (instant : Instant) : List Nat :=
  [instant.date.year.toNat, instant.date.month, instant.date.day]

/-- The numbers of the time of day. -/
def clockFields (instant : Instant) : List Nat :=
  [instant.secondOfDay / 3600, instant.secondOfDay / 60 % 60,
    instant.secondOfDay % 60 + instant.leap, instant.milliseconds - instant.leap * 1000]

/-- The numbers with which an instant is written. -/
def fields (instant : Instant) : List Nat :=
  instant.dateFields ++ instant.clockFields

/-- The widths of the numbers of an instant and the marks after them. -/
def layout : List (Nat × Char) :=
  [(4, '-'), (2, '-'), (2, 'T'), (2, ':'), (2, ':'), (2, '.'), (3, 'Z')]

/-- The text of an instant. The milliseconds of a leap second start at zero again. -/
theorem text_eq (instant : Instant) :
    instant.text = String.ofList
      (yearText instant.date.year ++ '-' :: padded 2 instant.date.month ++
        '-' :: padded 2 instant.date.day ++ 'T' :: padded 2 (instant.secondOfDay / 3600) ++
        ':' :: padded 2 (instant.secondOfDay / 60 % 60) ++
        ':' :: padded 2 (instant.secondOfDay % 60 + instant.leap) ++
        '.' :: padded 3 (instant.milliseconds - instant.leap * 1000) ++ ['Z']) := by
  have hshown : instant.milliseconds - instant.leap * 1000 =
      (instant.nanoseconds - instant.leap * 1000000000) / 1000000 := by
    unfold milliseconds
    omega
  rw [hshown]
  rfl

/-- A regular instant is written by its numbers. -/
theorem Regular.text_eq_fieldsText {instant : Instant} (h : instant.Regular) :
    instant.text = String.ofList (fieldsText layout instant.fields) := by
  have hyear : yearText instant.date.year = padded 4 instant.date.year.toNat :=
    if_pos ⟨h.year_nonneg, h.year_le⟩
  rw [text_eq, hyear]
  simp [fieldsText, layout, fields, dateFields, clockFields]

theorem secondOfDay_lt (instant : Instant) : instant.secondOfDay < 86400 := by
  rw [secondOfDay, Int.fmod_eq_emod_of_nonneg _ (by decide)]
  omega

/-- A leap second comes after the last second of a minute, and it is a second long. -/
theorem Regular.leap_bounds {instant : Instant} (h : instant.Regular) :
    (instant.leap = 0 ∨ instant.leap = 1 ∧ instant.secondOfDay % 60 = 59) ∧
      instant.leap * 1000 ≤ instant.milliseconds ∧
      instant.milliseconds < instant.leap * 1000 + 1000 := by
  have hlast := h.leap_last
  have hlimit := h.nanoseconds_lt
  rw [secondOfDay, Int.fmod_eq_emod_of_nonneg _ (by decide)]
  unfold leap milliseconds
  split_ifs <;> omega

/-- The numbers of a regular instant fit into their widths. -/
theorem Regular.fields_fit {instant : Instant} (h : instant.Regular) :
    List.Forall₂ (fun field value => value < 10 ^ field.1) layout instant.fields := by
  have hyear := h.year_le
  have hdate : instant.date.IsDate := CalendarDay.isDate_ofDays instant.dayNumber
  have hmonth := hdate.month_le
  have hday := hdate.day_le.trans (CalendarDay.monthLength_le _ _)
  have hsecond := instant.secondOfDay_lt
  obtain ⟨hleap, -, hmilliseconds⟩ := h.leap_bounds
  simp only [layout, fields, dateFields, clockFields, List.cons_append, List.nil_append,
    List.forall₂_cons, List.Forall₂.nil, and_true]
  omega

/-- A later day has larger numbers, whatever follows them. -/
theorem dateFields_append_lt {first second : Instant} (hfirst : first.Regular)
    (h : first.dayNumber < second.dayNumber) (rest other : List Nat) :
    first.dateFields ++ rest < second.dateFields ++ other := by
  have hbefore : first.date.Before second.date := CalendarDay.ofDays_before h
  have hnonneg := hfirst.year_nonneg
  rcases hbefore with hyear | ⟨hyear, hmonth | ⟨hmonth, hday⟩⟩
  · exact List.cons_lt_cons_iff.2 (.inl (by omega))
  · exact List.cons_lt_cons_iff.2
      (.inr ⟨congrArg Int.toNat hyear, List.cons_lt_cons_iff.2 (.inl hmonth)⟩)
  · exact List.cons_lt_cons_iff.2 (.inr ⟨congrArg Int.toNat hyear,
      List.cons_lt_cons_iff.2 (.inr ⟨hmonth, List.cons_lt_cons_iff.2 (.inl hday)⟩)⟩)

/-- A later time of a day has larger numbers. -/
theorem clockFields_lt {first second : Instant} (hfirst : first.Regular) (hsecond : second.Regular)
    (h : first.secondOfDay < second.secondOfDay ∨ first.secondOfDay = second.secondOfDay ∧
      first.milliseconds < second.milliseconds) : first.clockFields < second.clockFields := by
  obtain ⟨hleap, hstart, hend⟩ := hfirst.leap_bounds
  obtain ⟨hotherLeap, hotherStart, hotherEnd⟩ := hsecond.leap_bounds
  simp only [clockFields, List.cons_lt_cons_iff]
  omega

theorem seconds_eq (instant : Instant) :
    instant.seconds = 86400 * instant.dayNumber + instant.secondOfDay := by
  rw [dayNumber, secondOfDay, Int.fdiv_eq_ediv_of_nonneg _ (by decide),
    Int.fmod_eq_emod_of_nonneg _ (by decide)]
  omega

/-- A later instant has larger numbers. -/
theorem fields_lt {first second : Instant} (hfirst : first.Regular) (hsecond : second.Regular)
    (h : first.seconds < second.seconds ∨ first.seconds = second.seconds ∧
      first.milliseconds < second.milliseconds) : first.fields < second.fields := by
  have hfirstSeconds := first.seconds_eq
  have hsecondSeconds := second.seconds_eq
  have hfirstTime := first.secondOfDay_lt
  have hsecondTime := second.secondOfDay_lt
  by_cases hday : first.dayNumber < second.dayNumber
  · exact dateFields_append_lt hfirst hday first.clockFields second.clockFields
  · have hsame : first.dayNumber = second.dayNumber := by omega
    have hdate : first.dateFields = second.dateFields := by
      rw [dateFields, dateFields, date, date, hsame]
    rw [fields, fields, hdate]
    exact List.append_left_lt (clockFields_lt hfirst hsecond (by omega))

/-- A later instant is written with a later text. -/
theorem text_lt {first second : Instant} (hfirst : first.Regular) (hsecond : second.Regular)
    (h : first.seconds < second.seconds ∨ first.seconds = second.seconds ∧
      first.milliseconds < second.milliseconds) : first.text < second.text := by
  have hfields := fields_lt hfirst hsecond h
  have hlength : first.fields.length = second.fields.length := rfl
  rw [hfirst.text_eq_fieldsText, hsecond.text_eq_fieldsText, String.lt_iff, String.toList_ofList,
    String.toList_ofList]
  exact fieldsText_lt hsecond.fields_fit hlength hfields

/-- What is below the millisecond is not written. -/
theorem text_congr {first second : Instant} (hseconds : first.seconds = second.seconds)
    (hmilliseconds : first.milliseconds = second.milliseconds) : first.text = second.text := by
  have hleap : first.leap = second.leap := by
    unfold milliseconds at hmilliseconds
    unfold leap
    split_ifs <;> omega
  simp only [text_eq, date, dayNumber, secondOfDay, hseconds, hleap, hmilliseconds]

/-- An earlier instant has a text that does not come later. -/
theorem text_le {first second : Instant} (hfirst : first.Regular) (hsecond : second.Regular)
    (h : first ≤ second) : first.text ≤ second.text := by
  have hmilliseconds : first.nanoseconds ≤ second.nanoseconds →
      first.milliseconds ≤ second.milliseconds := fun hle => Nat.div_le_div_right hle
  rcases h with hseconds | ⟨hseconds, hnanoseconds⟩
  · exact Std.le_of_lt (text_lt hfirst hsecond (.inl hseconds))
  · rcases Nat.lt_or_eq_of_le (hmilliseconds hnanoseconds) with hlt | heq
    · exact Std.le_of_lt (text_lt hfirst hsecond (.inr ⟨hseconds, hlt⟩))
    · exact Std.le_of_eq (text_congr hseconds heq)

/-- A text shows the instant up to the millisecond. -/
theorem text_eq_iff {first second : Instant} (hfirst : first.Regular) (hsecond : second.Regular) :
    first.text = second.text ↔
      first.seconds = second.seconds ∧ first.milliseconds = second.milliseconds := by
  constructor
  · intro h
    have hfirstLater := mt (text_lt hsecond hfirst) (h ▸ String.lt_irrefl _)
    have hsecondLater := mt (text_lt hfirst hsecond) (h ▸ String.lt_irrefl _)
    omega
  · rintro ⟨hseconds, hmilliseconds⟩
    exact text_congr hseconds hmilliseconds

end Instant

/-! ## Ranges between instants -/

namespace DateRangeBuckets

/-- A range stands at its position in the form of its aggregation. -/
theorem at?_range {body : DateRangeBuckets} (children : List (String × Aggregation))
    {position : Nat} {range : DateRange} (h : body.ranges[position]? = some range)
    (rest : List Key) :
    at? (.name "date_range" :: .name "ranges" :: .item position :: rest)
      (Aggregation.compile (.bucket (.dateRange body) children)) =
        at? rest (record (present range.slots)) := by
  have hitem : (body.ranges.map fun range => record (present range.slots))[position]? =
      some (record (present range.slots)) := by
    rw [List.getElem?_map, h, Option.map_some]
  have hranges : entry? "ranges" (Division.dateRange body).body =
      some (.array (body.ranges.map fun range => record (present range.slots))) := by
    rw [Division.body_eq]
    exact entry?_present ["field", "format", "time_zone", "ranges", "keyed"] (by decide) rfl
      (.tail _ (.tail _ (.tail _ (.head _))))
  exact Aggregation.at?_listed children hranges hitem rest

/-- A range between two instants is added last and written with a text for each of them. The texts
are in the lexicographic order when the instants are in order, and they are the same exactly when
the instants agree up to the millisecond. -/
theorem betweenInstants_ordered (buckets : DateRangeBuckets)
    (children : List (String × Aggregation)) {lower upper : Instant} (hlower : lower.Regular)
    (hupper : upper.Regular) :
    ∃ first last : String,
      (buckets.betweenInstants lower upper).ranges =
          buckets.ranges ++ [⟨none, some first, some last⟩] ∧
        at? [.name "date_range", .name "ranges", .item buckets.ranges.length, .name "from"]
          (Aggregation.compile
            (.bucket (.dateRange (buckets.betweenInstants lower upper)) children)) =
          some (.string first) ∧
        at? [.name "date_range", .name "ranges", .item buckets.ranges.length, .name "to"]
          (Aggregation.compile
            (.bucket (.dateRange (buckets.betweenInstants lower upper)) children)) =
          some (.string last) ∧
        (lower ≤ upper → first ≤ last) ∧
        (first = last ↔
          lower.seconds = upper.seconds ∧ lower.milliseconds = upper.milliseconds) := by
  have hadded : (buckets.betweenInstants lower upper).ranges[buckets.ranges.length]? =
      some ⟨none, some lower.text, some upper.text⟩ := List.getElem?_concat_length
  exact ⟨lower.text, upper.text, rfl, at?_range children hadded _, at?_range children hadded _,
    Instant.text_le hlower hupper, Instant.text_eq_iff hlower hupper⟩

/-- Half a second into the leap second at the end of 2016. -/
def leapSecond : Instant where
  seconds := 1483228799
  nanoseconds := 1500000000

/-- The first nanosecond of 2017. -/
def newYear : Instant where
  seconds := 1483228800
  nanoseconds := 1

/-- A range from the leap second at the end of 2016 to the first nanosecond of 2017. -/
theorem betweenInstants_ordered_leapSecond :
    leapSecond.Regular ∧ newYear.Regular ∧ leapSecond ≤ newYear ∧
      ∃ first last : String,
        (betweenInstants ⟨"placed", none, none, [], none⟩ leapSecond newYear).ranges =
            [⟨none, some first, some last⟩] ∧
          first = "2016-12-31T23:59:60.500Z" ∧ last = "2017-01-01T00:00:00.000Z" ∧
          first ≤ last ∧ first ≠ last := by
  have hleap : leapSecond.Regular :=
    ⟨by decide +kernel, by decide +kernel, by decide +kernel, by decide +kernel⟩
  have hnew : newYear.Regular :=
    ⟨by decide +kernel, by decide +kernel, by decide +kernel, by decide +kernel⟩
  have horder : leapSecond ≤ newYear := .inl (by decide)
  obtain ⟨first, last, hranges, -, -, hle, heq⟩ :=
    betweenInstants_ordered ⟨"placed", none, none, [], none⟩ [] hleap hnew
  have htexts : (betweenInstants ⟨"placed", none, none, [], none⟩ leapSecond newYear).ranges =
      [⟨none, some "2016-12-31T23:59:60.500Z", some "2017-01-01T00:00:00.000Z"⟩] := by
    decide +kernel
  have hsame := htexts.symm.trans hranges
  simp only [List.nil_append, List.cons.injEq, DateRange.mk.injEq, Option.some.injEq, and_true,
    true_and] at hsame
  refine ⟨hleap, hnew, horder, first, last, hranges, hsame.1.symm, hsame.2.symm, hle horder, ?_⟩
  exact fun htext => absurd (heq.1 htext).1 (by decide)

end DateRangeBuckets

end SearchWire
