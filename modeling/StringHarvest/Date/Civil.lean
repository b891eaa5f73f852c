/-!
# Dates

The proleptic Gregorian calendar: a number of days since 1 January 1970 as
year, month and day, and back.

Years are counted from March, so that the leap day ends a year; 400 years are 146097 days.
-/

namespace StringHarvest.Date

/-- A date. -/
structure Civil where
  /-- The year; the year before 1 is 0. -/
  year : Int
  /-- The month, from 1. -/
  month : Nat
  /-- The day of the month, from 1. -/
  day : Nat
  deriving DecidableEq, Repr

/-- The days from 1 March of the year 0 to 1 January 1970. -/
def epochOffset : Int := 719468

/-- The number of days of 400 years. -/
def eraDays : Int := 146097

/-- The year within an era of a day of the era, years being counted from March. -/
def yearOfEra (day : Nat) : Nat := (day - day / 1460 + day / 36524 - day / 146096) / 365

/-- The date of a number of days since 1 January 1970. -/
def ofDays (days : Int) : Civil :=
  let shifted := days + epochOffset
  let era := shifted.fdiv eraDays
  let day := (shifted.fmod eraDays).toNat
  let year := yearOfEra day
  let dayOfYear := day - (365 * year + year / 4 - year / 100)
  let m := (5 * dayOfYear + 2) / 153
  let month := if m < 10 then m + 3 else m - 9
  { year := year + era * 400 + (if month ≤ 2 then 1 else 0)
    month
    day := dayOfYear - (153 * m + 2) / 5 + 1 }

/-- The number of days since 1 January 1970 of a date. -/
def toDays (date : Civil) : Int :=
  let year := if date.month ≤ 2 then date.year - 1 else date.year
  let era := year.fdiv 400
  let y := (year.fmod 400).toNat
  let m := if 2 < date.month then date.month - 3 else date.month + 9
  let dayOfYear := (153 * m + 2) / 5 + date.day - 1
  era * eraDays + (365 * y + y / 4 - y / 100 + dayOfYear : Nat) - epochOffset

/-- The day of the week of a number of days since 1 January 1970, which was a
Thursday; Sunday is 0. -/
def weekday (days : Int) : Nat := ((days + 4).fmod 7).toNat

end StringHarvest.Date
