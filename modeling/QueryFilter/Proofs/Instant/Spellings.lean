import QueryFilter.Proofs.Instant.DayCount
import QueryFilter.Proofs.Instant.Parts

/-!
# Spellings of an instant

One instant can be written in many ways, and the ways are read by different forms, of which the first
that fits decides. Here it is shown that they agree. A time with the letter for UTC, without it, or
with a blank before it is the same instant; an offset moves it by that much; a time to the minute is
that of the full minute; and a date alone is its midnight. The instant is counted from the calendar:
a full day for every day since 1970-01-01, the time of day, and of a fraction its first three digits.

For each spelling, the forms that are tried before its own have to fail. They do so at the character
after the date or after the last number of the time, so all that is needed of them is the part of a
form that comes after the date.

## Main definitions

* `Instant.Names` — a date text that names a count of milliseconds

## Main results

* `Instant.ofText?_of_time` — a date text is read in the first form that fits what follows the date
* `DateTime.exists_toInstant` — times of plain years are instants, with any offset
* `Instant.spellings_agree` — all spellings of an instant agree
-/

namespace QueryFilter

open Text

/-! ### Times of plain years -/

namespace DateTime

/-- A date in the years 0 to 9999 and a time of day. -/
structure IsPlain (t : DateTime) : Prop where
  date : t.date.isValid
  year : 0 ≤ t.date.year ∧ t.date.year ≤ 9999
  hour : t.hour < 24
  minute : t.minute < 60
  second : t.second < 60
  milli : t.milli < 1000

/-- **Times of plain years are instants**, with any offset of less than a day: the years that can be
named go on far beyond them. -/
theorem exists_toInstant {t : DateTime} (h : t.IsPlain) {offset : Int}
    (hoffset : -1440 < offset ∧ offset < 1440) :
    ∃ i, t.toInstant? offset = some i ∧ i.millis = t.toMillis - offset * 60000 := by
  obtain ⟨hdate, hyear, hhour, hminute, hsecond, hmilli⟩ := h
  have hfirst : Instant.firstYear ≤ t.date.year := Int.le_trans (by decide) hyear.1
  have hlast : t.date.year ≤ Instant.lastYear := Int.le_trans hyear.2 (by decide)
  have hvalid : t.isValid := by
    simp only [isValid, Bool.and_eq_true, decide_eq_true_eq]
    exact ⟨⟨⟨⟨⟨hfirst, hlast⟩, hdate⟩, hhour⟩, hminute⟩, hsecond.le⟩
  have hday : -800000 < t.date.dayNumber ∧ t.date.dayNumber < 3000000 := by
    have hbounds := CalendarDate.dayNumber_bounds hdate
    simp only [CalendarDate.daysBeforeYear, CalendarDate.epoch] at hbounds
    omega
  have htime : t.timeOfDay < 86400000 := by
    rw [timeOfDay]
    omega
  have hmillis : -8334601228800000 ≤ t.toMillis - offset * 60000 ∧
      t.toMillis - offset * 60000 ≤ 8210266876799999 := by
    rw [toMillis, millisPerDay]
    omega
  refine ⟨⟨_, hmillis.1, hmillis.2⟩, ?_, rfl⟩
  rw [toInstant?, if_pos hvalid, Instant.ofMillis?, dif_pos hmillis]

end DateTime

namespace Instant

/-! ### Fractions and offsets -/

theorem milliOfFraction_lt {digits : List Char} (h : ∀ c ∈ digits, isDigit c) :
    milliOfFraction digits < 1000 := by
  have hdigits : ∀ c ∈ (digits ++ ['0', '0', '0']).take 3, isDigit c := by
    intro c hc
    rcases List.mem_append.mp (List.mem_of_mem_take hc) with hc | hc
    · exact h c hc
    · have hzero : ∀ c ∈ ['0', '0', '0'], isDigit c := List.all_eq_true.mp (by decide)
      exact hzero c hc
  have hlength : ((digits ++ ['0', '0', '0']).take 3).length = 3 := by
    rw [List.length_take_of_le]
    simp
  have hlt := natOfDigits_lt hdigits
  rwa [hlength] at hlt

theorem offset?_minuteText {hours minutes : Nat} (hhours : hours < 24) (hminutes : minutes < 60) :
    offset? ('+' :: (minuteText hours minutes).toList) = some (hours * 60 + minutes : Int) ∧
      offset? ('-' :: (minuteText hours minutes).toList) = some (-(hours * 60 + minutes) : Int) := by
  rw [← List.append_nil (minuteText hours minutes).toList, minuteText_append]
  simp only [offset?, Option.bind_eq_bind, Option.bind_some, after?_cons_self,
    fullNumber?_two (hhours.trans (by decide)), fullNumber?_two (hminutes.trans (by decide))]
  simp [hhours, hminutes]

/-! ### Spellings of a time -/

section Spellings

variable {date : CalendarDate} (hdate : date.isValid) (hyear : 0 ≤ date.year ∧ date.year ≤ 9999)
include hdate hyear

/-- **The first form that fits what follows the date.** -/
theorem ofText?_of_time {rest : String} {before after : List Form} {form : Form} {t : DateTime}
    {i : Instant} (hforms : forms = before ++ form :: after)
    (hlast : EndsBare rest.toList)
    (hoffset : withOffset? ((dateText date).toList ++ rest.toList) = none)
    (hbefore : ∀ f ∈ before, f.time? date rest.toList = none)
    (htime : form.time? date rest.toList = some (t, [])) (hi : t.toInstant? 0 = some i) :
    ofText? (dateText date ++ rest) = some i := by
  have hnone : before.findSome? (inForm? · ((dateText date).toList ++ rest.toList)) = none := by
    refine List.findSome?_eq_none_iff.mpr fun f hf => ?_
    rw [inForm?_dateText hdate hyear, hbefore f hf, Option.bind_none]
  have hform : inForm? form ((dateText date).toList ++ rest.toList) = some i := by
    rw [inForm?_dateText hdate hyear, htime, Option.bind_some]
    exact hi
  rw [ofText?_dateText date hlast, ofChars?, hoffset, hforms]
  simp only [List.findSome?_append, hnone, Option.none_or, List.findSome?_cons, hform]

variable {hour minute : Nat} (hhour : hour < 100) (hminute : minute < 100)

section Seconds

variable {second : Nat} (hsecond : second < 100) {digits : List Char}
  (hdigits : ∀ c ∈ digits, isDigit c) {i : Instant}
  (hi : DateTime.toInstant? ⟨date, hour, minute, second, milliOfFraction digits⟩ 0 = some i)
include hhour hminute hsecond hdigits hi

/-- A time to the second without an offset, which the form with an offset misses. -/
theorem ofText?_toSecond {rest : String} {c : Char} {before after : List Form}
    {separator : Separator} (hc : c = 'T' ∨ c = ' ')
    (hrest : rest.toList = c :: (timeText hour minute second digits).toList)
    (hforms : forms = before ++ .toSecond separator :: after)
    (hbefore : ∀ f ∈ before, f.time? date rest.toList = none)
    (hafter : separator.after? rest.toList = some (timeText hour minute second digits).toList) :
    ofText? (dateText date ++ rest) = some i := by
  have hends : EndsBare rest.toList := by
    rw [hrest]
    exact endsBare_timeText [c] hour minute second hdigits
  have hoffset : withOffset? ((dateText date).toList ++ rest.toList) = none := by
    rw [hrest, ← List.append_nil (timeText hour minute second digits).toList,
      withOffset?_timeText hdate hyear hhour hminute hsecond hdigits (by simp) hc]
    rfl
  exact ofText?_of_time hdate hyear hforms hends hoffset hbefore
    (time?_toSecond hhour hminute hsecond hdigits hafter date) hi

theorem ofText?_letter :
    ofText? (dateText date ++ ("T" ++ timeText hour minute second digits)) = some i := by
  have hrest : ("T" ++ timeText hour minute second digits).toList =
      'T' :: (timeText hour minute second digits).toList := by simp
  have hforms : forms = [] ++ .toSecond .letter :: [.toSecond .blanks, .toMinute, .dateOnly] := rfl
  refine ofText?_toSecond hdate hyear hhour hminute hsecond hdigits hi (.inl rfl) hrest hforms
    (List.forall_mem_nil _) ?_
  rw [hrest]
  rfl

theorem ofText?_blank :
    ofText? (dateText date ++ (" " ++ timeText hour minute second digits)) = some i := by
  have hrest : (" " ++ timeText hour minute second digits).toList =
      ' ' :: (timeText hour minute second digits).toList := by simp
  have hforms : forms = [.toSecond .letter] ++ .toSecond .blanks :: [.toMinute, .dateOnly] := rfl
  refine ofText?_toSecond hdate hyear hhour hminute hsecond hdigits hi (.inr rfl) hrest hforms ?_ ?_
  · rw [hrest, List.forall_mem_singleton]
    rfl
  · rw [hrest, Separator.after?, ← List.singleton_append,
      skipBlanks_append (List.all_eq_true.mp (by decide)), skipBlanks_timeText]

end Seconds

/-- A time to the minute: the forms with seconds miss them, or find a letter in front of the hour. -/
theorem ofText?_minute (hhour : hour < 100) (hminute : minute < 100) {i : Instant}
    (hi : DateTime.toInstant? ⟨date, hour, minute, 0, 0⟩ 0 = some i) :
    ofText? (dateText date ++ ("T" ++ minuteText hour minute)) = some i := by
  have hrest : ("T" ++ minuteText hour minute).toList = 'T' :: (minuteText hour minute).toList := by
    simp
  have hends : EndsBare ("T" ++ minuteText hour minute).toList := by
    rw [String.toList_append]
    exact endsBare_minuteText _ hour minute
  have hoffset : withOffset? ((dateText date).toList ++ ("T" ++ minuteText hour minute).toList) =
      none := by
    rw [hrest, withOffset?_dateText hdate hyear]
    exact timeWithOffset?_minuteText hhour hminute date
  have hforms : forms = [.toSecond .letter, .toSecond .blanks] ++ .toMinute :: [.dateOnly] := rfl
  have hread := looseMinute?_minuteText hhour hminute []
  rw [List.append_nil] at hread
  have hafter : Separator.letter.after? ('T' :: (minuteText hour minute).toList) =
      some (minuteText hour minute).toList := rfl
  refine ofText?_of_time hdate hyear hforms hends hoffset ?_ ?_ hi
  · rw [hrest, List.forall_mem_cons, List.forall_mem_singleton]
    constructor
    · simp only [Form.time?, Option.bind_eq_bind, hafter, Option.bind_some, hread]
      rfl
    · rfl
  · simp only [hrest, Form.time?, Option.bind_eq_bind, hafter, Option.bind_some, hread,
      Option.pure_def]

/-- A date alone: all other forms miss the time. -/
theorem ofText?_date {i : Instant} (hi : DateTime.toInstant? ⟨date, 0, 0, 0, 0⟩ 0 = some i) :
    ofText? (dateText date) = some i := by
  have hforms : forms = [.toSecond .letter, .toSecond .blanks, .toMinute] ++ .dateOnly :: [] := rfl
  have hoffset : withOffset? ((dateText date).toList ++ "".toList) = none :=
    withOffset?_dateText hdate hyear []
  rw [← String.append_empty (s := dateText date)]
  refine ofText?_of_time hdate hyear hforms endsBare_nil hoffset ?_ rfl hi
  simp only [List.forall_mem_cons]
  exact ⟨rfl, rfl, rfl, List.forall_mem_nil _⟩

end Spellings

/-- Blanks around a date text make no difference. -/
theorem ofText?_between_blanks {front back : String} (hfront : ∀ c ∈ front.toList, isBlank c)
    (hback : ∀ c ∈ back.toList, isBlank c) (raw : String) :
    ofText? (front ++ raw ++ back) = ofText? raw := by
  rw [ofText?, String.toList_append, trimChars_append_blanks hback, String.toList_append,
    trimChars_blanks_append hfront, ofText?]

/-! ### All spellings -/

/-- A date text names the instant of a count of milliseconds. -/
def Names (raw : String) (millis : Int) : Prop := ∃ i, ofText? raw = some i ∧ i.millis = millis

section Plain

variable {date : CalendarDate} {hour minute second : Nat} {digits : List Char}
  (h : DateTime.IsPlain ⟨date, hour, minute, second, milliOfFraction digits⟩)
  (hdigits : ∀ c ∈ digits, isDigit c)
include h hdigits

/-- A time of a plain year with any offset. -/
theorem names_zoned {sign : Char} {zone : List Char} (hsign : isDigit sign = false ∧ sign ≠ '.')
    (hlast : EndsBare (sign :: zone)) {offset : Int}
    (hoffset : offset? (sign :: zone) = some offset) (hday : -1440 < offset ∧ offset < 1440) :
    Names (dateText date ++ ("T" ++ (timeText hour minute second digits ++
        String.ofList (sign :: zone))))
      (DateTime.toMillis ⟨date, hour, minute, second, milliOfFraction digits⟩ - offset * 60000) := by
  obtain ⟨i, hi, hmillis⟩ := DateTime.exists_toInstant h hday
  exact ⟨i, ofText?_zoned h.date h.year (h.hour.trans (by decide)) (h.minute.trans (by decide))
    (h.second.trans (by decide)) hdigits hsign hlast hoffset hi, hmillis⟩

/-- An offset of some hours and minutes, ahead of UTC or behind it. -/
theorem names_offset {hours minutes : Nat} (hhours : hours < 24) (hminutes : minutes < 60) :
    let time := timeText hour minute second digits
    let millis := DateTime.toMillis ⟨date, hour, minute, second, milliOfFraction digits⟩
    Names (dateText date ++ ("T" ++ (time ++ ("+" ++ minuteText hours minutes))))
        (millis - (hours * 60 + minutes) * 60000) ∧
      Names (dateText date ++ ("T" ++ (time ++ ("-" ++ minuteText hours minutes))))
        (millis + (hours * 60 + minutes) * 60000) := by
  intro time millis
  obtain ⟨hplus, hminus⟩ := offset?_minuteText hhours hminutes
  have hends : ∀ c, EndsBare (c :: (minuteText hours minutes).toList) :=
    fun c => endsBare_minuteText [c] hours minutes
  have htext : String.ofList ('+' :: (minuteText hours minutes).toList) =
        "+" ++ minuteText hours minutes ∧
      String.ofList ('-' :: (minuteText hours minutes).toList) =
        "-" ++ minuteText hours minutes := by
    constructor <;> simp
  constructor
  · rw [← htext.1]
    exact names_zoned h hdigits (by decide) (hends '+') hplus (by omega)
  · rw [← htext.2, ← Int.sub_neg, ← Int.neg_mul]
    exact names_zoned h hdigits (by decide) (hends '-') hminus (by omega)

end Plain

/-- **All spellings of an instant agree.** Take a date of the years 0 to 9999, a time of day, and a
fraction of a second with any number of digits. With `Z`, without an offset, and with a blank instead
of the letter, they name the same milliseconds: those of the days since 1970-01-01, of the time of
day, and of the first three digits of the fraction. An offset is subtracted from them. A time to the
minute is that with no seconds, a date is its midnight, and blanks around a date text count for
nothing. -/
theorem spellings_agree {date : CalendarDate} (hdate : date.isValid)
    (hyear : 0 ≤ date.year ∧ date.year ≤ 9999) {hour minute second : Nat} (hhour : hour < 24)
    (hminute : minute < 60) (hsecond : second < 60) {digits : List Char}
    (hdigits : ∀ c ∈ digits, isDigit c) :
    let time := timeText hour minute second digits
    let millis : Int := 86400000 * date.dayNumber +
      (((hour * 60 + minute) * 60 + second) * 1000 +
        natOfDigits ((digits ++ ['0', '0', '0']).take 3) : Nat)
    CalendarDate.IsDaysAfter date.dayNumber ⟨1970, 1, 1⟩ date ∧
      Names (dateText date ++ "T" ++ time ++ "Z") millis ∧
      Names (dateText date ++ "T" ++ time) millis ∧
      Names (dateText date ++ " " ++ time) millis ∧
      (∀ hours < 24, ∀ minutes < 60,
        Names (dateText date ++ "T" ++ time ++ "+" ++ minuteText hours minutes)
            (millis - (hours * 60 + minutes) * 60000) ∧
          Names (dateText date ++ "T" ++ time ++ "-" ++ minuteText hours minutes)
            (millis + (hours * 60 + minutes) * 60000)) ∧
      ofText? (dateText date ++ "T" ++ minuteText hour minute) =
        ofText? (dateText date ++ "T" ++ timeText hour minute 0 []) ∧
      ofText? (dateText date) = ofText? (dateText date ++ "T" ++ timeText 0 0 0 []) ∧
      ∀ front raw back : String, (∀ c ∈ front.toList, isBlank c) → (∀ c ∈ back.toList, isBlank c) →
        ofText? (front ++ raw ++ back) = ofText? raw := by
  intro time millis
  have hplain : DateTime.IsPlain ⟨date, hour, minute, second, milliOfFraction digits⟩ :=
    ⟨hdate, hyear, hhour, hminute, hsecond, milliOfFraction_lt hdigits⟩
  have hminutePlain : DateTime.IsPlain ⟨date, hour, minute, 0, 0⟩ :=
    ⟨hdate, hyear, hhour, hminute, Nat.succ_pos 59, Nat.succ_pos 999⟩
  have hdatePlain : DateTime.IsPlain ⟨date, 0, 0, 0, 0⟩ :=
    ⟨hdate, hyear, Nat.succ_pos 23, Nat.succ_pos 59, Nat.succ_pos 59, Nat.succ_pos 999⟩
  have hutc : (-1440 : Int) < 0 ∧ (0 : Int) < 1440 := by decide
  have hhour' : hour < 100 := hhour.trans (by decide)
  have hminute' : minute < 100 := hminute.trans (by decide)
  have hsecond' : second < 100 := hsecond.trans (by decide)
  obtain ⟨i, hi, hmillis⟩ := DateTime.exists_toInstant hplain hutc
  rw [Int.zero_mul, Int.sub_zero] at hmillis
  simp only [String.append_assoc]
  refine ⟨CalendarDate.isDaysAfter_dayNumber hdate, ?_, ?_, ?_, ?_, ?_, ?_, ?_⟩
  · exact ⟨i, ofText?_zoned hdate hyear hhour' hminute' hsecond' hdigits (by decide)
      (endsBare_singleton (by decide)) rfl hi, hmillis⟩
  · exact ⟨i, ofText?_letter hdate hyear hhour' hminute' hsecond' hdigits hi, hmillis⟩
  · exact ⟨i, ofText?_blank hdate hyear hhour' hminute' hsecond' hdigits hi, hmillis⟩
  · exact fun hours hhours minutes hminutes => names_offset hplain hdigits hhours hminutes
  · obtain ⟨j, hj, -⟩ := DateTime.exists_toInstant hminutePlain hutc
    rw [ofText?_minute hdate hyear hhour' hminute' hj]
    exact (ofText?_letter hdate hyear hhour' hminute' (by decide) (List.forall_mem_nil _) hj).symm
  · obtain ⟨j, hj, -⟩ := DateTime.exists_toInstant hdatePlain hutc
    rw [ofText?_date hdate hyear hj]
    exact (ofText?_letter hdate hyear (by decide) (by decide) (by decide) (List.forall_mem_nil _)
      hj).symm
  · intro front raw back hfront hback
    rw [← String.append_assoc]
    exact ofText?_between_blanks hfront hback raw

/-- The last millisecond before 1970, with a fraction that is cut off and an offset over the start of
1970. -/
theorem spellings_of_last_milli : Names "1969-12-31T23:59:59.9996Z" (-1) ∧
    Names "1969-12-31 23:59:59.9996" (-1) ∧ Names "1969-12-31T23:59:59.9996-23:59" 86339999 ∧
    ofText? "\t1969-12-31\n" = ofText? "1969-12-31T00:00:00" := by
  have hdate : CalendarDate.isValid ⟨1969, 12, 31⟩ := by decide
  have hyear : 0 ≤ (1969 : Int) ∧ (1969 : Int) ≤ 9999 := by decide
  have hdigits : ∀ c ∈ ['9', '9', '9', '6'], isDigit c := List.all_eq_true.mp (by decide)
  obtain ⟨-, hutc, -, hblank, hoffset, -, hmidnight, hblanks⟩ := spellings_agree hdate hyear
    (by decide : 23 < 24) (by decide : 59 < 60) (by decide : 59 < 60) hdigits
  have htext : dateText ⟨1969, 12, 31⟩ = "1969-12-31" ∧
      timeText 23 59 59 ['9', '9', '9', '6'] = "23:59:59.9996" ∧
      timeText 0 0 0 [] = "00:00:00" ∧ minuteText 23 59 = "23:59" := by decide +kernel
  obtain ⟨hdateText, htimeText, hmidnightText, hminuteText⟩ := htext
  have hbehind := (hoffset 23 (by decide) 59 (by decide)).2
  rw [hdateText, htimeText] at hutc hblank hbehind
  rw [hminuteText] at hbehind
  rw [hdateText, hmidnightText] at hmidnight
  refine ⟨hutc, hblank, hbehind, (hblanks "\t" "1969-12-31" "\n" ?_ ?_).trans hmidnight⟩
  · exact List.all_eq_true.mp (by decide)
  · exact List.all_eq_true.mp (by decide)

end Instant

end QueryFilter
