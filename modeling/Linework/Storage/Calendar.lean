/-!
# `Linework.Storage.Calendar`: dates of the Gregorian calendar

The calendar is the Gregorian one carried back before its introduction, with a
year zero, in UTC. Whole seconds count from the start of 1970, and an `Instant` adds
what lies below a second. Counting from the first of March puts the leap day at the
end of the year, so that the day and month follow from the day of the year by one
division each.
-/

set_option autoImplicit false

namespace Linework

/-- The nanoseconds of a second. -/
def nanosPerSecond : Nat := 1000000000

/-- A moment in UTC. Its seconds count from the start of 1970 without the leap
seconds. A leap second ends a minute and has no count of its own: it is the second
before it gone on for as long again. -/
structure Instant where
  seconds : Int
  nanos : Nat
  nanos_lt : nanos < 2 * nanosPerSecond
  ends_minute : nanosPerSecond ≤ nanos → seconds % 60 = 59
  deriving DecidableEq, Repr

namespace Instant

/-- The start of a second. -/
def ofUnixSeconds (seconds : Int) : Instant where
  seconds := seconds
  nanos := 0
  nanos_lt := by decide
  ends_minute := fun long => absurd long (by decide)

/-- One within a leap second and zero elsewhere. -/
def leap (i : Instant) : Nat :=
  i.nanos / nanosPerSecond

end Instant

/-- A moment by its calendar date and time of day. -/
structure CivilTime where
  year : Int
  month : Nat
  day : Nat
  hour : Nat
  minute : Nat
  second : Nat
  deriving DecidableEq, Repr

namespace CivilTime

/-- Days from the first of March of year zero to the first of January 1970. -/
def epochDays : Int := 719468

/-- The days of four hundred years, after which the calendar repeats. -/
def daysPerEra : Nat := 146097

/-- The year within its four hundred, from the day within them. -/
def yearOfEra (dayOfEra : Nat) : Nat :=
  (dayOfEra - dayOfEra / 1460 + dayOfEra / 36524 - dayOfEra / 146096) / 365

/-- The day within a year that begins in March. -/
def dayOfYear (dayOfEra : Nat) : Nat :=
  let y := yearOfEra dayOfEra
  dayOfEra - (365 * y + y / 4 - y / 100)

/-- The month of a day of the year, counted from March as zero. -/
def monthIndex (dayOfYear : Nat) : Nat :=
  (5 * dayOfYear + 2) / 153

/-- The moment that lies the given number of seconds after the start of 1970. -/
def ofUnixSeconds (seconds : Int) : CivilTime :=
  let days := seconds / 86400 + epochDays
  let rest := (seconds % 86400).toNat
  let era := days / daysPerEra
  let dayOfEra := (days % daysPerEra).toNat
  let d := dayOfYear dayOfEra
  let m := monthIndex d
  let month := if m < 10 then m + 3 else m - 9
  { year := yearOfEra dayOfEra + era * 400 + (if month ≤ 2 then 1 else 0)
    month := month
    day := d - (153 * m + 2) / 5 + 1
    hour := rest / 3600
    minute := rest / 60 % 60
    second := rest % 60 }

/-- The moment of an instant. A leap second is the sixty-first of its minute. -/
def ofInstant (i : Instant) : CivilTime :=
  let t := ofUnixSeconds i.seconds
  { t with second := t.second + i.leap }

/-- A number with zeros before it up to a width. -/
def padded (width n : Nat) : List Char :=
  let ds := Nat.toDigits 10 n
  List.replicate (width - ds.length) '0' ++ ds

/-- A year with four digits at least, signed when it is negative or has more. -/
def yearText (year : Int) : List Char :=
  if year < 0 then '-' :: padded 4 year.natAbs
  else if 9999 < year then '+' :: padded 4 year.natAbs
  else padded 4 year.natAbs

/-- The moment as a name: year, month, day, hour, minute and second, with hyphens
between them. -/
def stamp (t : CivilTime) : String :=
  String.ofList (yearText t.year ++ '-' :: (padded 2 t.month ++ '-' :: (padded 2 t.day
    ++ '-' :: (padded 2 t.hour ++ '-' :: (padded 2 t.minute ++ '-' :: padded 2 t.second)))))

end CivilTime

end Linework
