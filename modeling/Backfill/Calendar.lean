import Backfill.Text.Basic

/-!
# Dates and times of day

A moment is counted in seconds from the start of 1970.  Its date is that of the Gregorian
calendar, extended to all years, without leap seconds; it is found by counting days from the
first of March of the year zero, in periods of four hundred years.

## Main definitions

* `Calendar.Date`, `Calendar.Moment` — a date, and a date with a time of day.
* `Calendar.Moment.ofSeconds` — the moment so many seconds after the start of 1970.
* `Calendar.Moment.compact`, `Calendar.Moment.readable` — two ways to write it.

## Main results

* `Calendar.clock_lt` — hours, minutes and seconds are in range.
-/

namespace Backfill

namespace Calendar

/-- A date of the Gregorian calendar. -/
structure Date where
  year : Int
  month : Nat
  day : Nat
deriving DecidableEq, Repr, Inhabited

/-- A date with a time of day. -/
structure Moment where
  date : Date
  hour : Nat
  minute : Nat
  second : Nat
deriving DecidableEq, Repr, Inhabited

/-- Days of a period of four hundred years. -/
def periodDays : Int := 146097

/-- Days from the first of March of the year zero to the start of 1970. -/
def epochDays : Int := 719468

/-- The year of a period, counted from March, that a day of the period falls in. -/
def yearOfPeriod (day : Nat) : Nat := (day - day / 1460 + day / 36524 - day / 146096) / 365

/-- The day of its year, counted from the first of March, of a day of a period. -/
def dayOfYear (day year : Nat) : Nat := day - (365 * year + year / 4 - year / 100)

/-- The month, counted from March, that a day of a year falls in. -/
def monthOfYear (day : Nat) : Nat := (5 * day + 2) / 153

/-- Days of a year before a month, both counted from March. -/
def daysBefore (month : Nat) : Nat := (153 * month + 2) / 5

/-- The date so many days after the start of 1970. -/
def Date.ofDays (days : Int) : Date :=
  let period := Int.fdiv (days + epochDays) periodDays
  let day : Nat := (Int.fmod (days + epochDays) periodDays).toNat
  let year := yearOfPeriod day
  let dayInYear := dayOfYear day year
  let month := monthOfYear dayInYear
  { year := period * 400 + year + (if month < 10 then 0 else 1)
    month := if month < 10 then month + 3 else month - 9
    day := dayInYear - daysBefore month + 1 }

/-- The moment so many seconds after the start of 1970. -/
def Moment.ofSeconds (seconds : Int) : Moment :=
  let clock : Nat := (Int.fmod seconds 86400).toNat
  ⟨Date.ofDays (Int.fdiv seconds 86400), clock / 3600, clock / 60 % 60, clock % 60⟩

/-- Hours, minutes and seconds are in range. -/
theorem clock_lt (seconds : Int) : (Moment.ofSeconds seconds).hour < 24 ∧
    (Moment.ofSeconds seconds).minute < 60 ∧ (Moment.ofSeconds seconds).second < 60 := by
  have h₁ := Int.fmod_lt_of_pos seconds (show (0 : Int) < 86400 by omega)
  simp only [Moment.ofSeconds]
  omega

/-- The year: four digits, or a sign and at least four digits outside of 0 to 9999. -/
def yearText (year : Int) : String :=
  if 0 ≤ year ∧ year ≤ 9999 then Text.writePadded 4 year.toNat
  else (if year < 0 then "-" else "+") ++ Text.writePadded 4 year.natAbs

/-- The moment as digits: date and time of day, with an underscore between them. -/
def Moment.compact (moment : Moment) : String :=
  let two := Text.writePadded 2
  yearText moment.date.year ++ two moment.date.month ++ two moment.date.day ++ "_" ++
    two moment.hour ++ two moment.minute ++ two moment.second

/-- The moment with separators, and the name of the time zone. -/
def Moment.readable (moment : Moment) : String :=
  let two := Text.writePadded 2
  yearText moment.date.year ++ "-" ++ two moment.date.month ++ "-" ++ two moment.date.day ++ " " ++
    two moment.hour ++ ":" ++ two moment.minute ++ ":" ++ two moment.second ++ " UTC"

end Calendar

end Backfill
