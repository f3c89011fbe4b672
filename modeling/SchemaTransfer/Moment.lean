import SchemaTransfer.Text.Fixed

/-!
# Moments of the calendar

Dates are those of the Gregorian calendar. A count of seconds since 1970 is turned into a date by
eras of 400 years that start in March, so that a leap day is the last day of its year.
-/
namespace SchemaTransfer
open Fixed

/-- A moment of the calendar. -/
structure Moment where
  year : Nat
  month : Nat
  day : Nat
  hour : Nat
  minute : Nat
  second : Nat
  microsecond : Nat := 0
  deriving DecidableEq, Inhabited

namespace Moment

/-- A moment as part of a file name. -/
def stamp (m : Moment) : String :=
  padded 4 m.year ++ padded 2 m.month ++ padded 2 m.day ++ "_" ++ padded 2 m.hour ++
    padded 2 m.minute ++ padded 2 m.second

def date (m : Moment) : String :=
  padded 4 m.year ++ "-" ++ padded 2 m.month ++ "-" ++ padded 2 m.day

def time (m : Moment) : String :=
  padded 2 m.hour ++ ":" ++ padded 2 m.minute ++ ":" ++ padded 2 m.second

/-- Microseconds are shown if there are any. -/
def iso (m : Moment) : String :=
  m.date ++ "T" ++ m.time ++ if m.microsecond = 0 then "" else "." ++ padded 6 m.microsecond

/-- The year, month and day at a number of days behind the first of March of the year 0. -/
def civil (days : Nat) : Nat × Nat × Nat :=
  let dayOfEra := days % 146097
  let yearOfEra :=
    (dayOfEra - dayOfEra / 1460 + dayOfEra / 36524 - dayOfEra / 146096) / 365
  let dayOfYear := dayOfEra - (365 * yearOfEra + yearOfEra / 4 - yearOfEra / 100)
  let fromMarch := (5 * dayOfYear + 2) / 153
  let day := dayOfYear - (153 * fromMarch + 2) / 5 + 1
  let month := if fromMarch < 10 then fromMarch + 3 else fromMarch - 9
  let year := days / 146097 * 400 + yearOfEra + if month ≤ 2 then 1 else 0
  (year, month, day)

/-- The moment at a number of seconds since the beginning of 1970. -/
def ofSeconds (seconds microsecond : Nat) : Moment :=
  let (year, month, day) := civil (seconds / 86400 + 719468)
  let rest := seconds % 86400
  { year, month, day, hour := rest / 3600, minute := rest / 60 % 60, second := rest % 60,
    microsecond }

end Moment

end SchemaTransfer
