import Mathlib.Data.List.Basic
import QueryFilter.Instant.Parse
import QueryFilter.Proofs.Instant.Calendar
import QueryFilter.Proofs.Text.Blanks
import QueryFilter.Proofs.Text.Digits
import QueryFilter.Proofs.Text.Slices

/-!
# Dates and times with all their digits

A date text is read from left to right, number by number. A number with all its digits is read in
every form, whether the form admits shorter ones or not, and so is a date or a time that is made of
such numbers. Here that is shown in front of any text, so that what follows a date or a time alone
decides in which form it is read.

## Main definitions

* `Instant.dateText`, `Instant.minuteText`, `Instant.timeText` — dates and times with all their
  digits

## Main results

* `Instant.looseMinute?_minuteText`, `Instant.fraction?_fractionText` — the parts of a time
* `Instant.withOffset?_timeText` — a date and a time in front of an offset
* `Instant.inForm?_dateText` — a date in a form without an offset
* `Instant.ofText?_zoned` — a date text with an offset
-/

namespace QueryFilter

namespace Instant

open Text

/-! ### Texts -/

/-- A date, with all its digits. -/
def dateText (d : CalendarDate) : String :=
  paddedText 4 d.year.toNat ++ "-" ++ paddedText 2 d.month ++ "-" ++ paddedText 2 d.day

/-- An hour and a minute, with all their digits. -/
def minuteText (hour minute : Nat) : String := paddedText 2 hour ++ ":" ++ paddedText 2 minute

/-- A fraction of a second, or nothing if it has no digits. -/
def fractionText (digits : List Char) : String :=
  if digits = [] then "" else "." ++ String.ofList digits

/-- A time to the second with a fraction, and all digits before that. -/
def timeText (hour minute second : Nat) (digits : List Char) : String :=
  minuteText hour minute ++ ":" ++ paddedText 2 second ++ fractionText digits

section Append

variable (rest : List Char)

theorem dateText_append (d : CalendarDate) : (dateText d).toList ++ rest =
    (paddedText 4 d.year.toNat).toList ++ '-' :: ((paddedText 2 d.month).toList ++
      '-' :: ((paddedText 2 d.day).toList ++ rest)) := by
  simp [dateText]

theorem minuteText_append (hour minute : Nat) : (minuteText hour minute).toList ++ rest =
    (paddedText 2 hour).toList ++ ':' :: ((paddedText 2 minute).toList ++ rest) := by
  simp [minuteText]

theorem timeText_append (hour minute second : Nat) (digits : List Char) :
    (timeText hour minute second digits).toList ++ rest = (minuteText hour minute).toList ++
      ':' :: ((paddedText 2 second).toList ++ ((fractionText digits).toList ++ rest)) := by
  simp [timeText]

end Append

/-! ### Numbers -/

theorem after?_cons_self (c : Char) (cs : List Char) : after? c (c :: cs) = some cs := if_pos rfl

/-- A padded number starts with a digit. -/
theorem isDigit_of_head_paddedText {width n : Nat} {rest : List Char} {c : Char}
    (h : c ∈ ((paddedText width n).toList ++ rest).head?) : isDigit c := by
  obtain ⟨d, ds, hdigits⟩ := List.exists_cons_of_ne_nil (paddedText_ne_nil width n)
  rw [hdigits] at h
  cases h
  exact isDigit_of_mem_paddedText (hdigits ▸ List.mem_cons_self)

theorem skipBlanks_paddedText (width n : Nat) (rest : List Char) :
    skipBlanks ((paddedText width n).toList ++ rest) = (paddedText width n).toList ++ rest :=
  skipBlanks_of_not_isBlank fun _ hc => isBlank_of_isDigit (isDigit_of_head_paddedText hc)

theorem skipBlanks_timeText (hour minute second : Nat) (digits : List Char) :
    skipBlanks (timeText hour minute second digits).toList =
      (timeText hour minute second digits).toList := by
  rw [← List.append_nil (timeText hour minute second digits).toList, timeText_append,
    minuteText_append, skipBlanks_paddedText]

section Number

variable {width n : Nat} (hwidth : 0 < width) (h : n < 10 ^ width) (rest : List Char)
include hwidth h

theorem takeWhile_paddedText :
    (((paddedText width n).toList ++ rest).take width).takeWhile isDigit =
      (paddedText width n).toList := by
  rw [List.take_left' (length_paddedText hwidth h)]
  exact List.takeWhile_eq_self_iff.mpr fun c hc => isDigit_of_mem_paddedText hc

/-- A number with all its digits is read where all of them are wanted. -/
theorem fullNumber?_paddedText :
    fullNumber? width ((paddedText width n).toList ++ rest) = some (n, rest) := by
  have hlength := length_paddedText hwidth h
  rw [fullNumber?, takeWhile_paddedText hwidth h, List.drop_left' hlength]
  simp only [hlength, if_true, natOfDigits_paddedText]

/-- It is read where fewer digits are enough, too. -/
theorem shortNumber?_paddedText :
    shortNumber? width ((paddedText width n).toList ++ rest) = some (n, rest) := by
  have hne := List.isEmpty_eq_false_iff.mpr (paddedText_ne_nil width n)
  rw [shortNumber?, takeWhile_paddedText hwidth h]
  simp only [hne, Bool.false_eq_true, if_false, natOfDigits_paddedText, List.drop_left]

theorem looseNumber?_paddedText :
    looseNumber? width ((paddedText width n).toList ++ rest) = some (n, rest) := by
  rw [looseNumber?, skipBlanks_paddedText, shortNumber?_paddedText hwidth h]

end Number

theorem fullNumber?_two {n : Nat} (h : n < 100) (rest : List Char) :
    fullNumber? 2 ((paddedText 2 n).toList ++ rest) = some (n, rest) :=
  fullNumber?_paddedText (by decide) h rest

theorem looseNumber?_two {n : Nat} (h : n < 100) (rest : List Char) :
    looseNumber? 2 ((paddedText 2 n).toList ++ rest) = some (n, rest) :=
  looseNumber?_paddedText (by decide) h rest

/-- A year of four digits has no sign. -/
theorem looseYear?_paddedText {n : Nat} (h : n < 10000) (rest : List Char) :
    looseYear? ((paddedText 4 n).toList ++ rest) = some ((n : Int), rest) := by
  have hsign : ∀ c more, (paddedText 4 n).toList ++ rest = c :: more → isDigit c := by
    intro c more heq
    exact isDigit_of_head_paddedText (by rw [heq]; rfl)
  rw [looseYear?, skipBlanks_paddedText]
  split
  · rename_i heq
    exact absurd (hsign _ _ heq) (by decide)
  · rename_i heq
    exact absurd (hsign _ _ heq) (by decide)
  · rw [shortNumber?_paddedText (by decide) h]
    rfl

/-! ### Fractions -/

/-- A fraction is read up to what cannot go on with it. -/
theorem fraction?_fractionText {digits rest : List Char} (hdigits : ∀ c ∈ digits, isDigit c)
    (hrest : ∀ c ∈ rest.head?, isDigit c = false ∧ c ≠ '.') :
    fraction? ((fractionText digits).toList ++ rest) = some (milliOfFraction digits, rest) := by
  rw [fractionText]
  split
  · rename_i hnil
    rw [hnil]
    change fraction? rest = some (0, rest)
    rw [fraction?.eq_def]
    split
    · exact absurd rfl (hrest '.' rfl).2
    · rfl
  · rename_i hne
    obtain ⟨htake, hdrop⟩ := span_append hdigits fun c hc => (hrest c hc).1
    have hempty : digits.isEmpty = false := List.isEmpty_eq_false_iff.mpr hne
    have htext : ("." ++ String.ofList digits).toList ++ rest = '.' :: (digits ++ rest) := by simp
    rw [htext, fraction?, htake, hdrop, hempty]
    rfl

/-- Three digits are milliseconds. -/
theorem milliOfFraction_paddedText {n : Nat} (h : n < 1000) :
    milliOfFraction (paddedText 3 n).toList = n := by
  rw [milliOfFraction, List.take_left' (length_paddedText (by decide) h), natOfDigits_paddedText]

/-! ### Times -/

/-- What is read after a date and a separator in the form with an offset. -/
def timeWithOffset? (date : CalendarDate) (cs : List Char) : Option Instant := do
  let (hour, cs) ← fullNumber? 2 cs
  let cs ← after? ':' cs
  let (minute, cs) ← fullNumber? 2 cs
  let cs ← after? ':' cs
  let (second, cs) ← fullNumber? 2 cs
  let (milli, cs) ← fraction? cs
  let offset ← offset? cs
  DateTime.toInstant? ⟨date, hour, minute, second, milli⟩ offset

section Time

variable {hour minute second : Nat} (hhour : hour < 100) (hminute : minute < 100)
include hhour hminute

/-- A time to the second in front of an offset: the offset decides the rest. -/
theorem timeWithOffset?_timeText (hsecond : second < 100) {digits zone : List Char}
    (hdigits : ∀ c ∈ digits, isDigit c) (hzone : ∀ c ∈ zone.head?, isDigit c = false ∧ c ≠ '.')
    (date : CalendarDate) :
    timeWithOffset? date ((timeText hour minute second digits).toList ++ zone) =
      (offset? zone).bind fun offset =>
        DateTime.toInstant? ⟨date, hour, minute, second, milliOfFraction digits⟩ offset := by
  rw [timeText_append, minuteText_append]
  simp only [timeWithOffset?, Option.bind_eq_bind, Option.bind_some, after?_cons_self,
    fullNumber?_two hhour, fullNumber?_two hminute, fullNumber?_two hsecond,
    fraction?_fractionText hdigits hzone]

/-- A time to the minute has no seconds. -/
theorem timeWithOffset?_minuteText (date : CalendarDate) :
    timeWithOffset? date (minuteText hour minute).toList = none := by
  rw [← List.append_nil (minuteText hour minute).toList, minuteText_append]
  simp only [timeWithOffset?, Option.bind_eq_bind, Option.bind_some, after?_cons_self,
    fullNumber?_two hhour, fullNumber?_two hminute]
  rfl

theorem looseMinute?_minuteText (rest : List Char) :
    looseMinute? ((minuteText hour minute).toList ++ rest) = some (hour, minute, rest) := by
  rw [minuteText_append]
  simp only [looseMinute?, Option.bind_eq_bind, Option.bind_some, after?_cons_self,
    looseNumber?_two hhour, looseNumber?_two hminute, Option.pure_def]

/-- A time to the second after its separator. -/
theorem time?_toSecond (hsecond : second < 100) {digits cs : List Char}
    (hdigits : ∀ c ∈ digits, isDigit c) {separator : Separator}
    (hcs : separator.after? cs = some (timeText hour minute second digits).toList)
    (date : CalendarDate) : (Form.toSecond separator).time? date cs =
      some (⟨date, hour, minute, second, milliOfFraction digits⟩, []) := by
  have hfraction := fraction?_fractionText hdigits
    (fun c hc => absurd hc (Option.not_mem_none c) : ∀ c ∈ ([] : List Char).head?, _)
  rw [← List.append_nil (timeText hour minute second digits).toList, timeText_append] at hcs
  simp only [Form.time?, Option.bind_eq_bind, Option.bind_some, hcs,
    looseMinute?_minuteText hhour hminute, after?_cons_self, looseNumber?_two hsecond, hfraction,
    Option.pure_def]

end Time

/-! ### Dates -/

section Date

variable {date : CalendarDate} (hdate : date.isValid) (hyear : 0 ≤ date.year ∧ date.year ≤ 9999)
include hdate hyear

/-- **A date in the form with an offset**: a separator and a time have to follow. -/
theorem withOffset?_dateText (rest : List Char) :
    withOffset? ((dateText date).toList ++ rest) =
      match rest with
      | [] => none
      | separator :: cs =>
        if separator = 'T' || separator = 't' || separator = ' ' then timeWithOffset? date cs
        else none := by
  obtain ⟨hmonth, hday⟩ := CalendarDate.bounds_of_isValid hdate
  have hdigits : date.year.toNat < 10 ^ 4 := by omega
  have hnat : ((date.year.toNat : Nat) : Int) = date.year := Int.toNat_of_nonneg hyear.1
  rw [dateText_append]
  simp only [withOffset?, Option.bind_eq_bind, Option.bind_some, after?_cons_self,
    fullNumber?_paddedText (Nat.succ_pos 3) hdigits, fullNumber?_two (hmonth.trans_lt (by decide)),
    fullNumber?_two (hday.trans_lt (by decide)), hnat]
  cases rest with
  | nil => rfl
  | cons separator cs => rfl

/-- A date and a time to the second in front of an offset. -/
theorem withOffset?_timeText {hour minute second : Nat} (hhour : hour < 100) (hminute : minute < 100)
    (hsecond : second < 100) {digits zone : List Char} (hdigits : ∀ c ∈ digits, isDigit c)
    (hzone : ∀ c ∈ zone.head?, isDigit c = false ∧ c ≠ '.') {separator : Char}
    (hseparator : separator = 'T' ∨ separator = ' ') :
    withOffset? ((dateText date).toList ++
        separator :: ((timeText hour minute second digits).toList ++ zone)) =
      (offset? zone).bind fun offset =>
        DateTime.toInstant? ⟨date, hour, minute, second, milliOfFraction digits⟩ offset := by
  rw [withOffset?_dateText hdate hyear]
  rcases hseparator with rfl | rfl
  · exact timeWithOffset?_timeText hhour hminute hsecond hdigits hzone date
  · exact timeWithOffset?_timeText hhour hminute hsecond hdigits hzone date

theorem looseDate?_dateText (rest : List Char) :
    looseDate? ((dateText date).toList ++ rest) = some (date, rest) := by
  obtain ⟨hmonth, hday⟩ := CalendarDate.bounds_of_isValid hdate
  have hdigits : date.year.toNat < 10000 := by omega
  have hnat : ((date.year.toNat : Nat) : Int) = date.year := Int.toNat_of_nonneg hyear.1
  rw [dateText_append]
  simp only [looseDate?, Option.bind_eq_bind, Option.bind_some, after?_cons_self,
    looseYear?_paddedText hdigits, looseNumber?_two (hmonth.trans_lt (by decide)),
    looseNumber?_two (hday.trans_lt (by decide)), Option.pure_def, hnat]

/-- **A date in a form without an offset**: the rest has to be a time of that form. -/
theorem inForm?_dateText (form : Form) (rest : List Char) :
    inForm? form ((dateText date).toList ++ rest) =
      (form.time? date rest).bind fun (t, cs) => if cs.isEmpty then t.toInstant? 0 else none := by
  simp only [inForm?, Option.bind_eq_bind, looseDate?_dateText hdate hyear, Option.bind_some]

end Date

/-! ### Blanks around a date text -/

theorem endsBare_paddedText (cs : List Char) (width n : Nat) :
    EndsBare (cs ++ (paddedText width n).toList) :=
  endsBare_append (paddedText_ne_nil width n)
    (endsBare_digits fun _ hc => isDigit_of_mem_paddedText hc) cs

theorem endsBare_dateText (date : CalendarDate) : EndsBare (dateText date).toList := by
  rw [dateText, String.toList_append]
  exact endsBare_paddedText _ 2 date.day

theorem endsBare_minuteText (cs : List Char) (hour minute : Nat) :
    EndsBare (cs ++ (minuteText hour minute).toList) := by
  rw [minuteText, String.toList_append, ← List.append_assoc]
  exact endsBare_paddedText _ 2 minute

theorem endsBare_timeText (cs : List Char) (hour minute second : Nat) {digits : List Char}
    (h : ∀ c ∈ digits, isDigit c) :
    EndsBare (cs ++ (timeText hour minute second digits).toList) := by
  have hfraction : EndsBare (fractionText digits).toList := by
    rw [fractionText]
    split
    · exact endsBare_nil
    · rename_i hne
      have htext : ("." ++ String.ofList digits).toList = ['.'] ++ digits := by simp
      rw [htext]
      exact endsBare_append hne (endsBare_digits h) ['.']
  rw [timeText, String.toList_append, String.toList_append, ← List.append_assoc, ← List.append_assoc]
  exact (endsBare_paddedText _ 2 second).append hfraction

/-- A date text that does not end with a blank is read as it is. -/
theorem ofText?_dateText (date : CalendarDate) {rest : String} (h : EndsBare rest.toList) :
    ofText? (dateText date ++ rest) = ofChars? ((dateText date).toList ++ rest.toList) := by
  have hfirst : ∀ c ∈ ((dateText date).toList ++ rest.toList).head?, isBlank c = false := by
    rw [dateText_append]
    exact fun c hc => isBlank_of_isDigit (isDigit_of_head_paddedText hc)
  rw [ofText?, String.toList_append,
    trimChars_of_not_isBlank hfirst ((endsBare_dateText date).append h)]

/-- **A time with an offset** is read at once, whatever the offset is. -/
theorem ofText?_zoned {date : CalendarDate} (hdate : date.isValid)
    (hyear : 0 ≤ date.year ∧ date.year ≤ 9999) {hour minute second : Nat} (hhour : hour < 100)
    (hminute : minute < 100) (hsecond : second < 100) {digits : List Char}
    (hdigits : ∀ c ∈ digits, isDigit c) {sign : Char} {zone : List Char}
    (hsign : isDigit sign = false ∧ sign ≠ '.') (hlast : EndsBare (sign :: zone)) {offset : Int}
    (hoffset : offset? (sign :: zone) = some offset) {i : Instant}
    (hi : DateTime.toInstant? ⟨date, hour, minute, second, milliOfFraction digits⟩ offset = some i) :
    ofText? (dateText date ++ ("T" ++ (timeText hour minute second digits ++
      String.ofList (sign :: zone)))) = some i := by
  have hrest : ("T" ++ (timeText hour minute second digits ++ String.ofList (sign :: zone))).toList =
      'T' :: ((timeText hour minute second digits).toList ++ sign :: zone) := by simp
  have hzone : ∀ c ∈ (sign :: zone).head?, isDigit c = false ∧ c ≠ '.' := by
    rintro c ⟨⟩
    exact hsign
  have hends : EndsBare ('T' :: ((timeText hour minute second digits).toList ++ sign :: zone)) :=
    endsBare_append (List.cons_ne_nil sign zone) hlast ('T' :: _)
  rw [ofText?_dateText date (hrest ▸ hends), hrest, ofChars?, withOffset?_timeText hdate hyear hhour
    hminute hsecond hdigits hzone (.inl rfl), hoffset, Option.bind_some, hi]

end Instant

end QueryFilter
