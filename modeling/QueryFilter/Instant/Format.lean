import QueryFilter.Instant.Basic
import QueryFilter.Text.Numeral

/-!
# Instants as text

An instant is written in UTC with milliseconds, `2015-01-01T00:00:00.000Z`. A year of more or
less than four digits has a sign.
-/

namespace QueryFilter

namespace Instant

/-- A year: four digits from 0 to 9999, and otherwise a sign and at least four digits. -/
def yearText (year : Int) : String :=
  if 0 ≤ year ∧ year ≤ 9999 then Text.paddedText 4 year.toNat
  else (if year < 0 then "-" else "+") ++ Text.paddedText 4 year.natAbs

/-- An instant in UTC, to the millisecond. -/
def text (i : Instant) : String :=
  let t := DateTime.ofMillis i.millis
  yearText t.date.year ++ "-" ++ Text.paddedText 2 t.date.month ++ "-" ++
    Text.paddedText 2 t.date.day ++ "T" ++ Text.paddedText 2 t.hour ++ ":" ++
    Text.paddedText 2 t.minute ++ ":" ++ Text.paddedText 2 t.second ++ "." ++
    Text.paddedText 3 t.milli ++ "Z"

end Instant

end QueryFilter
