/-
Points in time as dates.

A point in time is a number of seconds before or after the start of 1970, in
universal time without leap seconds. Dates follow the Gregorian calendar in
both directions, with a year 0 before year 1. A year from 0 to 9999 has four
digits; any other has a sign and at least four digits.

Days are counted from 1 March of year 0, so that a leap day is the last day of
its year. Such years repeat after 400 years of 146097 days.
-/

import CycleTrace.Text.Numeral

namespace CycleTrace
namespace Inspection

/-- A day of the Gregorian calendar. -/
structure Date where
  year : Int
  month : Nat
  day : Nat
deriving DecidableEq, Repr

/-- Days from 1 March of year 0 to 1 January 1970. -/
def daysBeforeEpoch : Int := 719468

/-- Seconds of a day. -/
def secondsPerDay : Nat := 86400

namespace Date

/-- The year from 0 to 399 that a day of a period of 400 years falls in, when
years begin in March. -/
def yearOfPeriod (day : Nat) : Nat :=
  (day - day / 1460 + day / 36524 - day / 146096) / 365

/-- The month, counted from March as 0, that a day of a year falls in. -/
def monthOfYear (day : Nat) : Nat :=
  (5 * day + 2) / 153

/-- The first day of a month, both counted from March. -/
def firstDay (month : Nat) : Nat :=
  (153 * month + 2) / 5

/-- The date of a day counted from 1 January 1970. -/
def ofDay (day : Int) : Date :=
  let count := day + daysBeforeEpoch
  let period := count / 146097
  let dayOfPeriod := (count % 146097).toNat
  let year := yearOfPeriod dayOfPeriod
  let dayOfYear := dayOfPeriod - (365 * year + year / 4 - year / 100)
  let month := monthOfYear dayOfYear
  { year := period * 400 + year + if month < 10 then 0 else 1
    month := if month < 10 then month + 3 else month - 9
    day := dayOfYear - firstDay month + 1 }

/-- The text of a year. -/
def yearText (year : Int) : String :=
  if 0 ≤ year ∧ year ≤ 9999 then Text.paddedDecimal 4 year.toNat
  else (if year < 0 then "-" else "+") ++ Text.paddedDecimal 4 year.natAbs

/-- The text of a date: year, month and day. -/
def render (date : Date) : String :=
  yearText date.year ++ "-" ++ Text.paddedDecimal 2 date.month ++ "-"
    ++ Text.paddedDecimal 2 date.day

end Date

/-- The text of a time of day, in seconds since midnight. -/
def clockText (seconds : Nat) : String :=
  Text.paddedDecimal 2 (seconds / 3600) ++ ":" ++ Text.paddedDecimal 2 (seconds / 60 % 60)
    ++ ":" ++ Text.paddedDecimal 2 (seconds % 60)

/-- The text of a point in time. -/
def timestamp (seconds : Int) : String :=
  (Date.ofDay (seconds / secondsPerDay)).render ++ " "
    ++ clockText (seconds % secondsPerDay).toNat ++ " UTC"

end Inspection
end CycleTrace
