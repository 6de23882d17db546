import Linework.Storage.Calendar
import Mathlib

/-!
# `Linework.Proofs.Storage.Calendar`: the calendar ticks

`CivilTime.next` is the rule of the Gregorian calendar: a moment is followed by the next second of
its minute, the last second of a minute by the next minute, and so on up to the year, where the
leap years decide how long February is. `ofUnixSeconds_succ` shows that the moments of two
successive seconds follow each other by this rule, so the closed formula for a date counts the days
of the calendar, over all seconds before and after 1970.

The formula counts from March. `IsMarchDay` says which years, months and days of an era there are,
and `ofUnixSeconds_eq` reads the date off such a day. The day after is one of the same month, or the
first one of the next month, year or era (`exists_next_marchDate`).

A moment comes before its successor in the order of the fields, from the year down. So the order of
the fields is the order of time (`fields_ofInstant_lt_iff`). This holds also of instants in a leap
second, which has no count of its own and stands between two seconds that have.
-/

set_option autoImplicit false

namespace Linework

namespace CivilTime

/-! ## The rule of the calendar -/

/-- Every fourth year is a leap year, but of the years that end a century only every fourth. -/
def IsLeapYear (year : Int) : Prop := 4 ∣ year ∧ (100 ∣ year → 400 ∣ year)

instance (year : Int) : Decidable (IsLeapYear year) := inferInstanceAs (Decidable (_ ∧ _))

/-- The days of a month. -/
def daysInMonth (year : Int) (month : Nat) : Nat :=
  if month = 2 then if IsLeapYear year then 29 else 28
  else if month = 4 ∨ month = 6 ∨ month = 9 ∨ month = 11 then 30
  else 31

/-- The same time a day later. -/
def nextDay (t : CivilTime) : CivilTime :=
  if t.day < daysInMonth t.year t.month then { t with day := t.day + 1 }
  else if t.month < 12 then { t with month := t.month + 1, day := 1 }
  else { t with year := t.year + 1, month := 1, day := 1 }

/-- The moment a second later. -/
def next (t : CivilTime) : CivilTime :=
  if t.second < 59 then { t with second := t.second + 1 }
  else if t.minute < 59 then { t with minute := t.minute + 1, second := 0 }
  else if t.hour < 23 then { t with hour := t.hour + 1, minute := 0, second := 0 }
  else { t.nextDay with hour := 0, minute := 0, second := 0 }

/-- A date that the calendar has, and a time of the day. -/
structure IsValid (t : CivilTime) : Prop where
  month_pos : 1 ≤ t.month
  month_le : t.month ≤ 12
  day_pos : 1 ≤ t.day
  day_le : t.day ≤ daysInMonth t.year t.month
  hour_lt : t.hour < 24
  minute_lt : t.minute < 60
  second_lt : t.second < 60

/-- No month is longer than 31 days. -/
theorem daysInMonth_le (year : Int) (month : Nat) : daysInMonth year month ≤ 31 := by
  unfold daysInMonth
  split_ifs <;> decide

/-- Every month has a day. -/
theorem one_le_daysInMonth (year : Int) (month : Nat) : 1 ≤ daysInMonth year month := by
  unfold daysInMonth
  split_ifs <;> decide

/-- The leap years are the same in every era. -/
theorem isLeapYear_add_era (era year : Int) :
    IsLeapYear (era * 400 + year) ↔ IsLeapYear year := by
  unfold IsLeapYear
  omega

/-! ## Years and months that begin in March -/

/-- The day of an era that a year of it begins with. -/
def yearStart (y : Nat) : Nat := 365 * y + y / 4 - y / 100 + y / 400

/-- The day of a year that a month of it begins with. -/
def monthStart (m : Nat) : Nat := (153 * m + 2) / 5

/-- A year that begins in March ends with the February of the next. -/
theorem yearStart_succ (y : Nat) :
    yearStart (y + 1) = yearStart y + 365 + if IsLeapYear (y + 1) then 1 else 0 := by
  -- Without these the cases would have centuries that are no fourth years.
  have centuries : 100 ∣ y + 1 → 4 ∣ y + 1 := Dvd.dvd.trans (by decide)
  have eras : 400 ∣ y + 1 → 100 ∣ y + 1 := Dvd.dvd.trans (by decide)
  have leap : IsLeapYear (y + 1) ↔ 4 ∣ y + 1 ∧ (100 ∣ y + 1 → 400 ∣ y + 1) := by
    unfold IsLeapYear
    norm_cast
  have few : y / 100 ≤ y := Nat.div_le_self ..
  simp only [yearStart, Nat.succ_div, leap]
  -- A quotient goes up by one where its divisor divides the next year, and the sum of the three
  -- tells leap years.
  split_ifs <;> omega

/-- Every year begins after the one before. -/
theorem yearStart_strictMono : StrictMono yearStart := by
  refine strictMono_nat_of_lt_succ fun y => ?_
  rw [yearStart_succ]
  omega

/-- An era has 400 years. -/
theorem yearStart_era : yearStart 400 = daysPerEra := rfl

/-- The formula for the year does not go down from day to day. -/
theorem yearOfEra_mono : Monotone yearOfEra := by
  intro a b le
  -- What is taken away at the end is a fourth of what is added before, so neither part goes down.
  have blocks : a - a / 1460 ≤ b - b / 1460 := by omega
  have centuries : a / 36524 ≤ b / 36524 := Nat.div_le_div_right le
  have eras (n : Nat) : n / 146096 = n / 36524 / 4 := by rw [Nat.div_div_eq_div_mul]
  refine Nat.div_le_div_right ?_
  rw [eras, eras]
  generalize a / 36524 = a' at *
  generalize b / 36524 = b' at *
  omega

/-- The formula for the year is right on the first and on the last day of every year. -/
theorem yearOfEra_ends : ∀ y < 400,
    yearOfEra (yearStart y) = y ∧ yearOfEra (yearStart (y + 1) - 1) = y := by
  decide +kernel

/-- Between these days the formula is right because it does not go down. -/
theorem yearOfEra_eq {d y : Nat} (inEra : y < 400) (start : yearStart y ≤ d)
    (upTo : d < yearStart (y + 1)) : yearOfEra d = y := by
  -- The two ends are known, so all days between them are in the year.
  obtain ⟨first, last⟩ := yearOfEra_ends y inEra
  have lower : yearOfEra (yearStart y) ≤ yearOfEra d := yearOfEra_mono start
  have upper : yearOfEra d ≤ yearOfEra (yearStart (y + 1) - 1) :=
    yearOfEra_mono (Nat.le_sub_one_of_lt upTo)
  omega

/-- A day before the start of a year lies in a year before it. -/
theorem exists_yearStart_le {d n : Nat} (before : d < yearStart n) :
    ∃ y < n, yearStart y ≤ d ∧ d < yearStart (y + 1) := by
  -- The induction goes back from the later year to the one that the day lies in.
  induction n with
  | zero => exact absurd before (Nat.not_lt_zero d)
  | succ n ih =>
    rcases Nat.lt_or_ge d (yearStart n) with earlier | start
    · obtain ⟨y, less, within⟩ := ih earlier
      exact ⟨y, Nat.lt_succ_of_lt less, within⟩
    · exact ⟨n, Nat.lt_succ_self n, start, before⟩

/-- The formula for the month gives the month that the day lies in. -/
theorem monthIndex_eq_iff {d m : Nat} :
    monthIndex d = m ↔ monthStart m ≤ d ∧ d < monthStart (m + 1) := by
  unfold monthIndex monthStart
  omega

/-! ## Days of an era -/

/-- There are this year of an era, this month of it, counted from March, and this day of the month.
All three are counted from zero. -/
structure IsMarchDay (y m k : Nat) : Prop where
  in_era : y < 400
  in_year : yearStart y + monthStart m + k < yearStart (y + 1)
  in_month : monthStart m + k < monthStart (m + 1)

/-- The days from the start of the first era to a day. -/
def marchCount (era : Int) (y m k : Nat) : Int :=
  daysPerEra * era + (yearStart y + monthStart m + k : Nat)

/-- The date of a day, as a moment at midnight. -/
def marchDate (era : Int) (y m k : Nat) : CivilTime where
  year := era * 400 + (y : Int) + (if 10 ≤ m then 1 else 0)
  month := if m < 10 then m + 3 else m - 9
  day := k + 1
  hour := 0
  minute := 0
  second := 0

/-- A moment of the same day, by the seconds since midnight. -/
def atSecond (t : CivilTime) (rest : Nat) : CivilTime :=
  { t with hour := rest / 3600, minute := rest / 60 % 60, second := rest % 60 }

section MarchDay

variable {y m k rest : Nat} {era : Int}

/-- A year has twelve months. -/
theorem IsMarchDay.month_lt (day : IsMarchDay y m k) : m < 12 := by
  have := day.in_year
  rw [yearStart_succ] at this
  unfold monthStart at this
  split_ifs at this <;> omega

/-- A day of an era is one of its days by number. -/
theorem IsMarchDay.lt_daysPerEra (day : IsMarchDay y m k) :
    yearStart y + monthStart m + k < daysPerEra := by
  rw [← yearStart_era]
  exact day.in_year.trans_le (yearStart_strictMono.monotone day.in_era)

/-- The date and time of a second, by the day of the era that it lies in. -/
theorem ofUnixSeconds_eq (day : IsMarchDay y m k) (inDay : rest < 86400) :
    ofUnixSeconds (86400 * (marchCount era y m k - epochDays) + rest)
      = (marchDate era y m k).atSecond rest := by
  have inEra := day.in_era
  have bound := day.lt_daysPerEra
  have days : (86400 * (marchCount era y m k - epochDays) + rest) / 86400 + epochDays
      = marchCount era y m k := by omega
  have time : ((86400 * (marchCount era y m k - epochDays) + rest) % 86400).toNat = rest := by
    omega
  have whole : marchCount era y m k / daysPerEra = era := by
    unfold marchCount daysPerEra at *
    omega
  have part : (marchCount era y m k % daysPerEra).toNat = yearStart y + monthStart m + k := by
    unfold marchCount daysPerEra at *
    omega
  -- The formulas are taken one after another: the era, the year, the day of the year and the
  -- month.
  have year : yearOfEra (yearStart y + monthStart m + k) = y :=
    yearOfEra_eq inEra (by omega) day.in_year
  have ofYear : dayOfYear (yearStart y + monthStart m + k) = monthStart m + k := by
    simp only [dayOfYear, year]
    unfold yearStart
    omega
  have month : monthIndex (monthStart m + k) = m :=
    monthIndex_eq_iff.mpr ⟨Nat.le_add_right .., day.in_month⟩
  have late := day.month_lt
  simp only [ofUnixSeconds, days, time, whole, part, year, ofYear, month, marchDate, atSecond,
    mk.injEq, and_true, true_and]
  refine ⟨?_, ?_⟩
  · split_ifs <;> omega
  · unfold monthStart
    omega

/-- Every second lies in a day of an era. -/
theorem exists_isMarchDay (seconds : Int) :
    ∃ era y m k rest, IsMarchDay y m k ∧ rest < 86400 ∧
      seconds = 86400 * (marchCount era y m k - epochDays) + (rest : Nat) := by
  obtain ⟨d, within⟩ : ∃ d : Nat, (seconds / 86400 + epochDays) % daysPerEra = d :=
    Int.eq_ofNat_of_zero_le (Int.emod_nonneg _ (by decide))
  have bound : d < yearStart 400 := by
    rw [yearStart_era]
    unfold daysPerEra at *
    omega
  -- The day of the era lies in one of its years, and the rest of it in one of the months.
  obtain ⟨y, inEra, start, upTo⟩ := exists_yearStart_le bound
  obtain ⟨first, last⟩ := monthIndex_eq_iff.mp (rfl : monthIndex (d - yearStart y) = _)
  generalize monthIndex (d - yearStart y) = m at first last
  refine ⟨(seconds / 86400 + epochDays) / daysPerEra, y, m, d - yearStart y - monthStart m,
    (seconds % 86400).toNat, ⟨inEra, by omega, by omega⟩, by omega, ?_⟩
  unfold marchCount daysPerEra at *
  omega

/-- A month of a year that begins in March ends where the calendar says. -/
theorem monthStart_succ {m : Nat} (early : m < 11) (year : Int) :
    monthStart (m + 1) = monthStart m + daysInMonth year (if m < 10 then m + 3 else m - 9) := by
  -- The lengths of eleven months, with no leap year to think of.
  interval_cases m <;> rfl

/-- The last month begins 337 days after the first. -/
theorem monthStart_le {m : Nat} (early : m < 12) : monthStart m ≤ 337 := by
  unfold monthStart
  omega

/-- The year itself ends with the February that the calendar has. -/
theorem yearStart_succ_eq (era : Int) (y : Nat) :
    yearStart (y + 1) = yearStart y + monthStart 11 + daysInMonth (era * 400 + y + 1) 2 := by
  have leap : IsLeapYear (era * 400 + y + 1) ↔ IsLeapYear (y + 1) := by
    rw [add_assoc, isLeapYear_add_era]
  rw [yearStart_succ, daysInMonth, if_pos rfl]
  simp only [leap, monthStart]
  split_ifs <;> rfl

/-- A day is the last one of its month by the calendar where it is the last one of the month, or of
the year, that begins in March. -/
theorem IsMarchDay.lt_daysInMonth_iff (day : IsMarchDay y m k) (era : Int) :
    k + 1 < daysInMonth (marchDate era y m k).year (marchDate era y m k).month
      ↔ IsMarchDay y m (k + 1) := by
  have inEra := day.in_era
  rcases (Nat.le_of_lt_succ day.month_lt).lt_or_eq with early | rfl
  · have length := monthStart_succ early (marchDate era y m k).year
    have before : monthStart (m + 1) ≤ 337 := monthStart_le (by omega)
    have year := yearStart_succ y
    change k + 1 < daysInMonth _ (if m < 10 then m + 3 else m - 9) ↔ _
    constructor
    · intro more
      exact ⟨inEra, by omega, by omega⟩
    · rintro ⟨-, -, more⟩
      omega
  · -- February is the last month, and only the end of the year tells how long it is.
    have year := yearStart_succ_eq era y
    change k + 1 < daysInMonth (era * 400 + y + 1) 2 ↔ _
    have february : daysInMonth (era * 400 + y + 1) 2 ≤ 29 := by
      rw [daysInMonth, if_pos rfl]
      split_ifs <;> decide
    constructor
    · intro more
      refine ⟨inEra, by omega, ?_⟩
      unfold monthStart
      omega
    · rintro ⟨-, more, -⟩
      omega

/-- A day of a month is one that the calendar has. -/
theorem IsMarchDay.le_daysInMonth (day : IsMarchDay y m k) (era : Int) :
    k + 1 ≤ daysInMonth (marchDate era y m k).year (marchDate era y m k).month := by
  cases k with
  | zero => exact one_le_daysInMonth _ _
  | succ k =>
    have before : IsMarchDay y m k :=
      ⟨day.in_era, Nat.lt_of_succ_lt day.in_year, Nat.lt_of_succ_lt day.in_month⟩
    exact (before.lt_daysInMonth_iff era).mpr day

/-! ## The day after -/

/-- A day that is not the last of its month is followed by the next of the month. -/
theorem IsMarchDay.nextDay_of_more (day : IsMarchDay y m k) (more : IsMarchDay y m (k + 1))
    (era : Int) : (marchDate era y m k).nextDay = marchDate era y m (k + 1) :=
  if_pos ((day.lt_daysInMonth_iff era).mpr more)

/-- After the last day of a month other than February comes the first of the next month. -/
theorem IsMarchDay.nextDay_of_last (day : IsMarchDay y m k) (last : ¬ IsMarchDay y m (k + 1))
    (early : m < 11) (era : Int) :
    yearStart y + monthStart m + k + 1 = yearStart y + monthStart (m + 1) ∧
      (marchDate era y m k).nextDay = marchDate era y (m + 1) 0 := by
  have inMonth := day.in_month
  have ended := mt (day.lt_daysInMonth_iff era).mp last
  constructor
  · have length := monthStart_succ early (marchDate era y m k).year
    change ¬ k + 1 < daysInMonth _ (if m < 10 then m + 3 else m - 9) at ended
    omega
  · refine (if_neg ended).trans ?_
    -- In December, the month 9, the year changes as well.
    clear * - early
    interval_cases m <;> simp [marchDate]

/-- After the last day of February comes the first day of the next year. -/
theorem IsMarchDay.nextDay_of_last_february (day : IsMarchDay y 11 k)
    (last : ¬ IsMarchDay y 11 (k + 1)) (era : Int) :
    yearStart y + monthStart 11 + k + 1 = yearStart (y + 1) ∧
      (marchDate era y 11 k).nextDay = marchDate era (y + 1) 0 0 := by
  have inYear := day.in_year
  have ended := mt (day.lt_daysInMonth_iff era).mp last
  constructor
  · have length := yearStart_succ_eq era y
    change ¬ k + 1 < daysInMonth (era * 400 + y + 1) 2 at ended
    omega
  · refine (if_neg ended).trans ?_
    simp [marchDate]
    omega

/-- The last year of an era is followed by the first one of the next. -/
theorem marchDate_era (era : Int) : marchDate era 400 0 0 = marchDate (era + 1) 0 0 0 := by
  simp [marchDate]
  omega

/-- The day after a day of an era is the next of its month, or the first of the next month, year or
era. -/
theorem exists_next_marchDate (day : IsMarchDay y m k) (era : Int) :
    ∃ era' y' m' k', IsMarchDay y' m' k' ∧ marchCount era' y' m' k' = marchCount era y m k + 1 ∧
      (marchDate era y m k).nextDay = marchDate era' y' m' k' := by
  have inEra := day.in_era
  -- There is another day in the month, in the year or in the era, or the next era begins.
  by_cases more : IsMarchDay y m (k + 1)
  · refine ⟨era, y, m, k + 1, more, ?_, day.nextDay_of_more more era⟩
    unfold marchCount
    omega
  rcases (Nat.le_of_lt_succ day.month_lt).lt_or_eq with early | rfl
  · obtain ⟨count, date⟩ := day.nextDay_of_last more early era
    have before : monthStart (m + 1) ≤ 337 := monthStart_le (by omega)
    have year := yearStart_succ y
    refine ⟨era, y, m + 1, 0, ⟨inEra, by omega, by unfold monthStart; omega⟩, ?_, date⟩
    unfold marchCount
    omega
  · obtain ⟨count, date⟩ := day.nextDay_of_last_february more era
    have march : monthStart 0 = 0 := rfl
    rcases (Nat.le_of_lt_succ inEra).lt_or_eq with inside | rfl
    · have year := yearStart_succ (y + 1)
      refine ⟨era, y + 1, 0, 0, ⟨by omega, by omega, by decide⟩, ?_, date⟩
      unfold marchCount
      omega
    · refine ⟨era + 1, 0, 0, 0, ⟨by decide, by decide, by decide⟩, ?_, ?_⟩
      · have whole : yearStart (399 + 1) = daysPerEra := yearStart_era
        have zero : yearStart 0 = 0 := rfl
        unfold marchCount
        rw [mul_add, mul_one]
        omega
      · rw [date, marchDate_era]

/-! ## Seconds -/

/-- Before the last second of a day the next second is one of the same day. -/
theorem next_atSecond (t : CivilTime) (more : rest + 1 < 86400) :
    (t.atSecond rest).next = t.atSecond (rest + 1) := by
  unfold next
  split_ifs with second minute hour
  all_goals
    simp only [atSecond, mk.injEq, true_and] at *
    omega

/-- The time of the day does not matter for the date. -/
theorem nextDay_atSecond (t : CivilTime) (rest : Nat) :
    (t.atSecond rest).nextDay = t.nextDay.atSecond rest := by
  rw [nextDay, nextDay, apply_ite (atSecond · rest), apply_ite (atSecond · rest)]
  rfl

/-- The last second of a day is followed by the first of the next day. -/
theorem next_atSecond_last (t : CivilTime) : (t.atSecond 86399).next = t.nextDay.atSecond 0 := by
  have midnight : (t.atSecond 86399).next = (t.atSecond 86399).nextDay.atSecond 0 := rfl
  rw [midnight, nextDay_atSecond]
  rfl

/-- The moments of two successive seconds follow each other by the rule of the calendar. -/
theorem ofUnixSeconds_succ (seconds : Int) :
    ofUnixSeconds (seconds + 1) = (ofUnixSeconds seconds).next := by
  obtain ⟨era, y, m, k, rest, day, inDay, rfl⟩ := exists_isMarchDay seconds
  rw [ofUnixSeconds_eq day inDay]
  -- The date changes with the last second of a day only.
  rcases (Nat.le_of_lt_succ inDay).lt_or_eq with more | rfl
  · rw [next_atSecond _ (Nat.succ_lt_succ more), ← ofUnixSeconds_eq day (Nat.succ_lt_succ more),
      Nat.cast_succ, add_assoc]
  · obtain ⟨era', y', m', k', day', count, date⟩ := exists_next_marchDate day era
    rw [next_atSecond_last, date, ← ofUnixSeconds_eq day' (by decide), count]
    congr 1
    omega

/-- With the moment that the count starts from, this fixes the moments of all seconds. -/
example : ofUnixSeconds 0 = ⟨1970, 1, 1, 0, 0, 0⟩ := by decide

/-- Every second has a date that the calendar has. -/
theorem isValid_ofUnixSeconds (seconds : Int) : (ofUnixSeconds seconds).IsValid := by
  obtain ⟨era, y, m, k, rest, day, inDay, rfl⟩ := exists_isMarchDay seconds
  rw [ofUnixSeconds_eq day inDay]
  have month : 1 ≤ (marchDate era y m k).month ∧ (marchDate era y m k).month ≤ 12 := by
    have late := day.month_lt
    simp only [marchDate]
    split_ifs <;> omega
  exact {
    month_pos := month.1
    month_le := month.2
    day_pos := Nat.succ_pos k
    day_le := day.le_daysInMonth era
    hour_lt := Nat.div_lt_of_lt_mul inDay
    minute_lt := Nat.mod_lt _ (by decide)
    second_lt := Nat.mod_lt _ (by decide) }

end MarchDay

/-! ## The order of time -/

/-- The numbers that make up a moment, the one that tells most first. -/
def fields (t : CivilTime) : List Int :=
  [t.year, t.month, t.day, t.hour, t.minute, t.second]

/-- A moment comes before the one a second later. So does the leap second between the two. -/
theorem fields_lt_fields_next (t : CivilTime) {leap : Nat} (ends : leap = 0 ∨ t.second = 59) :
    { t with second := t.second + leap }.fields < t.next.fields := by
  unfold next nextDay fields
  split_ifs
  -- Each case of the successor has a first field that is greater than before.
  all_goals
    simp only [List.cons_lt_cons_iff, lt_irrefl, false_or, true_and, and_false, or_false]
    omega

/-- Within a second the count of leap seconds decides. -/
theorem fields_add_lt_iff (t : CivilTime) {a b : Nat} :
    { t with second := t.second + a }.fields < { t with second := t.second + b }.fields
      ↔ a < b := by
  simp [fields, List.cons_lt_cons_iff]

/-- So moments are in the order of their seconds. -/
theorem fields_strictMono : StrictMono fun seconds => (ofUnixSeconds seconds).fields := by
  refine strictMono_int_of_lt_succ fun seconds => ?_
  have later := fields_lt_fields_next (ofUnixSeconds seconds) (.inl (Eq.refl 0))
  rw [← ofUnixSeconds_succ] at later
  exact later

end CivilTime

namespace Instant

/-- The whole second that an instant falls in: the count of seconds and, after that, whether it is
a leap second. -/
def wholeSecond (i : Instant) : Int ×ₗ Nat := toLex (i.seconds, i.leap)

/-- There is a leap second at the end of a minute only. -/
theorem leap_eq_zero_or (i : Instant) : i.leap = 0 ∨ i.seconds % 60 = 59 := by
  rcases Nat.lt_or_ge i.nanos nanosPerSecond with short | long
  · exact .inl (Nat.div_eq_of_lt short)
  · exact .inr (i.ends_minute long)

end Instant

namespace CivilTime

/-- The second of the minute can be told from the count of seconds alone. -/
theorem second_ofUnixSeconds (seconds : Int) :
    ((ofUnixSeconds seconds).second : Int) = seconds % 60 := by
  unfold ofUnixSeconds
  dsimp only
  omega

/-- An instant comes before all that is in later seconds. -/
theorem fields_ofInstant_lt (i : Instant) :
    (ofInstant i).fields < (ofUnixSeconds (i.seconds + 1)).fields := by
  rw [ofUnixSeconds_succ]
  refine fields_lt_fields_next _ (i.leap_eq_zero_or.imp_right fun ends => ?_)
  have := second_ofUnixSeconds i.seconds
  omega

/-- An instant comes with the start of its second or after that. -/
theorem le_fields_ofInstant (i : Instant) :
    (ofUnixSeconds i.seconds).fields ≤ (ofInstant i).fields := by
  by_contra! before
  exact Nat.not_lt_zero _ ((fields_add_lt_iff (ofUnixSeconds i.seconds)).mp before)

/-- An instant in an earlier whole second comes before. -/
theorem fields_ofInstant_lt_of_lt {s t : Instant} (earlier : s.wholeSecond < t.wholeSecond) :
    (ofInstant s).fields < (ofInstant t).fields := by
  -- The seconds differ, or they are the same and one of the two is a leap second.
  rcases Prod.Lex.lt_iff.mp earlier with before | ⟨same, leap⟩
  · calc (ofInstant s).fields
      _ < (ofUnixSeconds (s.seconds + 1)).fields := fields_ofInstant_lt s
      _ ≤ (ofUnixSeconds t.seconds).fields := fields_strictMono.monotone before
      _ ≤ (ofInstant t).fields := le_fields_ofInstant t
  · have seconds : s.seconds = t.seconds := same
    rw [ofInstant, ofInstant, seconds]
    exact (fields_add_lt_iff _).mpr leap

/-- Instants in one whole second are the same moment. -/
theorem ofInstant_congr {s t : Instant} (same : s.wholeSecond = t.wholeSecond) :
    ofInstant s = ofInstant t := by
  obtain ⟨seconds, leap⟩ := Prod.mk.inj (toLex.injective same)
  rw [ofInstant, ofInstant, seconds, leap]

/-- The order of the fields is the order of time. -/
theorem fields_ofInstant_lt_iff {s t : Instant} :
    (ofInstant s).fields < (ofInstant t).fields ↔ s.wholeSecond < t.wholeSecond := by
  refine ⟨fun less => ?_, fields_ofInstant_lt_of_lt⟩
  by_contra! notEarlier
  rcases notEarlier.lt_or_eq with later | same
  · exact less.asymm (fields_ofInstant_lt_of_lt later)
  · rw [ofInstant_congr same] at less
    exact less.ne rfl

end CivilTime

end Linework
