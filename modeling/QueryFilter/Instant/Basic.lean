import QueryFilter.Instant.Calendar

/-!
# Instants

An instant is a count of milliseconds since the start of 1970 in UTC, within the years that dates
can name.

## Main definitions

* `Instant` — the milliseconds, with the bounds of the years
* `Instant.ofMillis?` — the instant of a count of milliseconds, if its year can be named
* `DateTime` — a date with a time of day, as a clock shows it
* `DateTime.toInstant?` — the instant of such a time in UTC
-/

namespace QueryFilter

/-- The milliseconds of a day. -/
def millisPerDay : Int := 86400000

/-- A point in time, in milliseconds since the start of 1970 in UTC. -/
structure Instant where
  millis : Int
  /-- Not before the year -262143. -/
  notBefore : -8334601228800000 ≤ millis
  /-- Not after the year 262142. -/
  notAfter : millis ≤ 8210266876799999
deriving DecidableEq

namespace Instant

/-- The first year in which an instant can lie. -/
def firstYear : Int := -262143

/-- The last year in which an instant can lie. -/
def lastYear : Int := 262142

/-- The instant of a count of milliseconds, if it lies in a year that can be named. -/
def ofMillis? (millis : Int) : Option Instant :=
  if h : -8334601228800000 ≤ millis ∧ millis ≤ 8210266876799999 then some ⟨millis, h.1, h.2⟩
  else none

/-- The bounds are the start of the first year and the end of the last. -/
theorem bounds_eq :
    -8334601228800000 = millisPerDay * (CalendarDate.mk firstYear 1 1).dayNumber ∧
      8210266876799999 = millisPerDay * (CalendarDate.mk (lastYear + 1) 1 1).dayNumber - 1 := by
  decide

end Instant

/-- A date and a time of day. A second of 60 is one second after that of 59. -/
structure DateTime where
  date : CalendarDate
  hour : Nat
  minute : Nat
  second : Nat
  milli : Nat
deriving DecidableEq

namespace DateTime

/-- Whether there is such a day, in a year that can be named, and such a time. -/
def isValid (t : DateTime) : Bool :=
  Instant.firstYear ≤ t.date.year && t.date.year ≤ Instant.lastYear && t.date.isValid &&
    t.hour < 24 && t.minute < 60 && t.second ≤ 60

/-- The milliseconds since midnight. -/
def timeOfDay (t : DateTime) : Nat := ((t.hour * 60 + t.minute) * 60 + t.second) * 1000 + t.milli

/-- The milliseconds since the start of 1970 of a time in UTC. -/
def toMillis (t : DateTime) : Int := millisPerDay * t.date.dayNumber + t.timeOfDay

/-- The instant of a time that is ahead of UTC by an offset in minutes. -/
def toInstant? (t : DateTime) (offset : Int) : Option Instant :=
  if t.isValid then Instant.ofMillis? (t.toMillis - offset * 60000) else none

/-- The time in UTC of a count of milliseconds. -/
def ofMillis (millis : Int) : DateTime :=
  let time := (millis % millisPerDay).toNat
  { date := .ofDayNumber (millis / millisPerDay)
    hour := time / 3600000
    minute := time / 60000 % 60
    second := time / 1000 % 60
    milli := time % 1000 }

end DateTime

end QueryFilter
