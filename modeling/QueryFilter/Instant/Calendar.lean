/-!
# The calendar

Dates of the proleptic Gregorian calendar and their day numbers: the count of days since
1970-01-01, negative before it. Year 0 exists and is a leap year.

## Main definitions

* `CalendarDate` — year, month and day
* `CalendarDate.isValid` — whether the month has that day
* `CalendarDate.dayNumber`, `CalendarDate.ofDayNumber` — dates and day numbers
-/

namespace QueryFilter

/-- A year, a month from 1 and a day from 1. -/
structure CalendarDate where
  year : Int
  month : Nat
  day : Nat
deriving DecidableEq

namespace CalendarDate

/-- Every fourth year is a leap year, but of the full centuries only every fourth. -/
def isLeapYear (year : Int) : Bool := year % 4 = 0 && (year % 100 ≠ 0 || year % 400 = 0)

/-- The days of each month. -/
def monthLengths (leap : Bool) : List Nat :=
  [31, if leap then 29 else 28, 31, 30, 31, 30, 31, 31, 30, 31, 30, 31]

/-- The number of days of a month, zero if there is no such month. -/
def daysInMonth (year : Int) (month : Nat) : Nat :=
  if month = 0 then 0 else ((monthLengths (isLeapYear year))[month - 1]?).getD 0

/-- Whether the month exists and has the day. -/
def isValid (d : CalendarDate) : Bool := 1 ≤ d.day && d.day ≤ daysInMonth d.year d.month

/-- The days from the start of year 0 to the start of a year: 365 for each year, and one for each
leap year among them. -/
def daysBeforeYear (year : Int) : Int :=
  365 * year + (year + 3) / 4 - (year + 99) / 100 + (year + 399) / 400

/-- The days of a year before one of its months. -/
def daysBeforeMonth (year : Int) (month : Nat) : Nat :=
  ((monthLengths (isLeapYear year)).take (month - 1)).foldr (· + ·) 0

/-- The days from the start of year 0 to 1970-01-01. -/
def epoch : Int := daysBeforeYear 1970

/-- The days since 1970-01-01. -/
def dayNumber (d : CalendarDate) : Int :=
  daysBeforeYear d.year + (daysBeforeMonth d.year d.month + (d.day - 1) : Nat) - epoch

/-- The year of a day that is counted from the start of year 0. The mean length of a year gives it
up to one. -/
def yearOfDay (n : Int) : Int :=
  let guess := 400 * n / 146097
  if n < daysBeforeYear guess then guess - 1
  else if daysBeforeYear (guess + 1) ≤ n then guess + 1
  else guess

/-- The month and the day of the month of a day that is counted from the start of the first of the
given months. -/
def monthOfDay (month : Nat) : List Nat → Nat → Nat × Nat
  | [], day => (month, day + 1)
  | length :: lengths, day =>
    if day < length then (month, day + 1) else monthOfDay (month + 1) lengths (day - length)

/-- The date with a given day number. -/
def ofDayNumber (n : Int) : CalendarDate :=
  let year := yearOfDay (n + epoch)
  let (month, day) :=
    monthOfDay 1 (monthLengths (isLeapYear year)) (n + epoch - daysBeforeYear year).toNat
  { year, month, day }

end CalendarDate

end QueryFilter
