import QueryFilter.Instant.Basic
import QueryFilter.Text.Blank
import QueryFilter.Text.Numeral

/-!
# Instants from text

A date is written in one of five forms, tried in this order:

* a time with an offset from UTC, in which every number has all its digits;
* a date and a time to the second or finer, with a `T` between them, in UTC;
* the same with blanks between them, or nothing;
* a date and a time to the minute, with a `T` between them, in UTC;
* a date alone, which is its midnight in UTC.

In all forms but the first, numbers may be short and have blanks before them, and a year with a
sign may have any number of digits. A fraction of a second is cut off after milliseconds.

## Main definitions

* `Instant.withOffset?`, `Instant.inForm?` — the forms with and without an offset
* `Instant.ofText?` — the instant of a date text
-/

namespace QueryFilter

namespace Instant

open Text

/-! ### Parts of a date text -/

/-- The text after a given character. -/
def after? (c : Char) : List Char → Option (List Char)
  | [] => none
  | d :: cs => if c = d then some cs else none

/-- A number of exactly `width` digits, and the text after it. -/
def fullNumber? (width : Nat) (cs : List Char) : Option (Nat × List Char) :=
  let digits := (cs.take width).takeWhile isDigit
  if digits.length = width then some (natOfDigits digits, cs.drop width) else none

/-- A number of one to `width` digits, and the text after it. -/
def shortNumber? (width : Nat) (cs : List Char) : Option (Nat × List Char) :=
  let digits := (cs.take width).takeWhile isDigit
  if digits.isEmpty then none else some (natOfDigits digits, cs.drop digits.length)

/-- A number of one to `width` digits after any blanks, and the text after it. -/
def looseNumber? (width : Nat) (cs : List Char) : Option (Nat × List Char) :=
  shortNumber? width (skipBlanks cs)

/-- A year after any blanks: up to four digits, or a sign and any number of them. -/
def looseYear? (cs : List Char) : Option (Int × List Char) :=
  match skipBlanks cs with
  | '-' :: rest => (shortNumber? rest.length rest).map fun (n, rest) => (-n, rest)
  | '+' :: rest => (shortNumber? rest.length rest).map fun (n, rest) => (n, rest)
  | rest => (shortNumber? 4 rest).map fun (n, rest) => (n, rest)

/-- The milliseconds of a fraction: its first three digits, with zeros for missing ones. -/
def milliOfFraction (digits : List Char) : Nat :=
  natOfDigits ((digits ++ ['0', '0', '0']).take 3)

/-- An optional fraction of a second in milliseconds, and the text after it. A point has to be
followed by a digit. -/
def fraction? : List Char → Option (Nat × List Char)
  | '.' :: cs =>
    if (cs.takeWhile isDigit).isEmpty then none
    else some (milliOfFraction (cs.takeWhile isDigit), cs.dropWhile isDigit)
  | cs => some (0, cs)

/-! ### The form with an offset -/

/-- An offset from UTC in minutes, which ends the text. -/
def offset? : List Char → Option Int
  | [] => none
  | sign :: cs =>
    if sign = 'Z' || sign = 'z' then if cs.isEmpty then some 0 else none
    else if sign = '+' || sign = '-' || sign = '\u2212' then do
      let (hours, cs) ← fullNumber? 2 cs
      let cs ← after? ':' cs
      let (minutes, cs) ← fullNumber? 2 cs
      if hours < 24 && minutes < 60 && cs.isEmpty then
        let total : Int := hours * 60 + minutes
        some (if sign = '+' then total else -total)
      else none
    else none

/-- A time with an offset from UTC. -/
def withOffset? (cs : List Char) : Option Instant := do
  let (year, cs) ← fullNumber? 4 cs
  let cs ← after? '-' cs
  let (month, cs) ← fullNumber? 2 cs
  let cs ← after? '-' cs
  let (day, cs) ← fullNumber? 2 cs
  let (separator, cs) ← cs.head?.map (·, cs.tail)
  if separator = 'T' || separator = 't' || separator = ' ' then
    let (hour, cs) ← fullNumber? 2 cs
    let cs ← after? ':' cs
    let (minute, cs) ← fullNumber? 2 cs
    let cs ← after? ':' cs
    let (second, cs) ← fullNumber? 2 cs
    let (milli, cs) ← fraction? cs
    let offset ← offset? cs
    DateTime.toInstant? ⟨⟨year, month, day⟩, hour, minute, second, milli⟩ offset
  else none

/-! ### The forms in UTC -/

/-- What separates the date from the time. -/
inductive Separator where
  | letter
  | blanks
deriving DecidableEq

/-- The forms of a date text without an offset. -/
inductive Form where
  | toSecond (separator : Separator)
  | toMinute
  | dateOnly
deriving DecidableEq

/-- The text after what separates the date from the time. -/
def Separator.after? : Separator → List Char → Option (List Char)
  | letter, cs => Instant.after? 'T' cs
  | blanks, cs => some (skipBlanks cs)

/-- A date in loose form, and the text after it. -/
def looseDate? (cs : List Char) : Option (CalendarDate × List Char) := do
  let (year, cs) ← looseYear? cs
  let cs ← after? '-' cs
  let (month, cs) ← looseNumber? 2 cs
  let cs ← after? '-' cs
  let (day, cs) ← looseNumber? 2 cs
  return (⟨year, month, day⟩, cs)

/-- An hour and a minute in loose form, and the text after them. -/
def looseMinute? (cs : List Char) : Option (Nat × Nat × List Char) := do
  let (hour, cs) ← looseNumber? 2 cs
  let cs ← after? ':' cs
  let (minute, cs) ← looseNumber? 2 cs
  return (hour, minute, cs)

/-- The time of day in a form, and the text after it. -/
def Form.time? (date : CalendarDate) : Form → List Char → Option (DateTime × List Char)
  | toSecond separator, cs => do
    let (hour, minute, cs) ← looseMinute? (← separator.after? cs)
    let cs ← Instant.after? ':' cs
    let (second, cs) ← looseNumber? 2 cs
    let (milli, cs) ← fraction? cs
    return (⟨date, hour, minute, second, milli⟩, cs)
  | toMinute, cs => do
    let (hour, minute, cs) ← looseMinute? (← Separator.letter.after? cs)
    return (⟨date, hour, minute, 0, 0⟩, cs)
  | dateOnly, cs => some (⟨date, 0, 0, 0, 0⟩, cs)

/-- The instant of a text in a form without an offset. -/
def inForm? (form : Form) (cs : List Char) : Option Instant := do
  let (date, cs) ← looseDate? cs
  let (time, cs) ← form.time? date cs
  if cs.isEmpty then time.toInstant? 0 else none

/-- The forms without an offset in the order in which they are tried. -/
def forms : List Form := [.toSecond .letter, .toSecond .blanks, .toMinute, .dateOnly]

/-- The instant of a date text without blanks around it. -/
def ofChars? (cs : List Char) : Option Instant :=
  match withOffset? cs with
  | some i => some i
  | none => forms.findSome? (inForm? · cs)

/-- The instant of a date text, with any blanks around it. -/
def ofText? (raw : String) : Option Instant := ofChars? (trimChars raw.toList)

end Instant

end QueryFilter
