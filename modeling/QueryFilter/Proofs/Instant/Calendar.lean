import Mathlib.Algebra.Order.Group.Nat
import QueryFilter.Instant.Basic

/-!
# Day numbers and dates

Every day number has a date, and the date has that day number. Years are found by the mean length of
a year, which is exact over 400 years; within them the leap days are unevenly spread, but never by
so much that the guess is off by more than one year. Months are found by taking their lengths off
one after the other.

## Main results

* `CalendarDate.dayNumber_ofDayNumber` — the date of a day number has that day number
* `CalendarDate.isValid_ofDayNumber` — and there is such a date
* `DateTime.toMillis_ofMillis` — the same for milliseconds and times of day
-/

namespace QueryFilter

namespace CalendarDate

/-! ### Years -/

/-- A day lies in the year that is found for it. -/
theorem yearOfDay_spec (n : Int) :
    daysBeforeYear (yearOfDay n) ≤ n ∧ n < daysBeforeYear (yearOfDay n + 1) := by
  have hguess : ∀ guess : Int, guess = 400 * n / 146097 →
      daysBeforeYear (guess - 1) ≤ n ∧ n < daysBeforeYear (guess + 2) := by
    intro guess hguess
    simp only [daysBeforeYear]
    omega
  obtain ⟨hlower, hupper⟩ := hguess _ rfl
  rw [yearOfDay]
  split_ifs with hbefore hafter
  · rw [Int.sub_add_cancel]
    exact ⟨hlower, hbefore⟩
  · rw [Int.add_assoc]
    exact ⟨hafter, hupper⟩
  · exact ⟨not_lt.mp hbefore, not_le.mp hafter⟩

/-- The months of a year make up the year. -/
theorem sum_monthLengths (year : Int) :
    (((monthLengths (isLeapYear year)).foldr (· + ·) 0 : Nat) : Int) =
      daysBeforeYear (year + 1) - daysBeforeYear year := by
  have hsum : ∀ leap : Bool,
      (monthLengths leap).foldr (· + ·) 0 = 365 + (if leap then 1 else 0) := by decide
  rw [hsum, daysBeforeYear, daysBeforeYear]
  by_cases hleap : isLeapYear year
  · rw [if_pos hleap]
    simp only [isLeapYear, Bool.and_eq_true, Bool.or_eq_true, decide_eq_true_eq] at hleap
    omega
  · rw [if_neg hleap]
    simp only [isLeapYear, Bool.and_eq_true, Bool.or_eq_true, decide_eq_true_eq] at hleap
    omega

/-! ### Months -/

/-- A day that is counted from the start of some months lies in one of them. -/
theorem monthOfDay_spec (lengths : List Nat) (month day : Nat)
    (h : day < lengths.foldr (· + ·) 0) :
    ∃ k length, lengths[k]? = some length ∧ (monthOfDay month lengths day).1 = month + k ∧
      1 ≤ (monthOfDay month lengths day).2 ∧ (monthOfDay month lengths day).2 ≤ length ∧
      (lengths.take k).foldr (· + ·) 0 + ((monthOfDay month lengths day).2 - 1) = day := by
  induction lengths generalizing month day with
  | nil => exact absurd h (Nat.not_lt_zero day)
  | cons first lengths ih =>
    rw [monthOfDay]
    split
    · rename_i hday
      exact ⟨0, first, rfl, rfl, Nat.succ_le_succ (Nat.zero_le day), hday, Nat.zero_add day⟩
    · rename_i hday
      rw [List.foldr_cons] at h
      obtain ⟨k, length, hk, hmonth, hlower, hupper, hsum⟩ :=
        ih (month + 1) (day - first) (by omega)
      refine ⟨k + 1, length, hk, by rw [hmonth]; omega, hlower, hupper, ?_⟩
      rw [List.take_succ_cons, List.foldr_cons]
      omega

/-! ### Dates -/

/-- The year of a day number, its month and its day of the month. -/
theorem ofDayNumber_spec (n : Int) : ∃ k length day,
    (monthLengths (isLeapYear (ofDayNumber n).year))[k]? = some length ∧
      ofDayNumber n = ⟨(ofDayNumber n).year, k + 1, day⟩ ∧ 1 ≤ day ∧ day ≤ length ∧
      daysBeforeYear (ofDayNumber n).year +
        (((monthLengths (isLeapYear (ofDayNumber n).year)).take k).foldr (· + ·) 0 + (day - 1) :
          Nat) = n + epoch := by
  obtain ⟨hlower, hupper⟩ := yearOfDay_spec (n + epoch)
  have hsum := sum_monthLengths (yearOfDay (n + epoch))
  obtain ⟨k, length, hk, hmonth, hday, hle, htotal⟩ := monthOfDay_spec
    (monthLengths (isLeapYear (yearOfDay (n + epoch)))) 1
    (n + epoch - daysBeforeYear (yearOfDay (n + epoch))).toNat (by omega)
  refine ⟨k, length, (ofDayNumber n).day, hk, ?_, hday, hle, ?_⟩
  · rw [Nat.add_comm k 1, ← hmonth]
    rfl
  · change daysBeforeYear (yearOfDay (n + epoch)) + _ = _
    have hnat : ((n + epoch - daysBeforeYear (yearOfDay (n + epoch))).toNat : Int) =
        n + epoch - daysBeforeYear (yearOfDay (n + epoch)) := Int.toNat_of_nonneg (by omega)
    rw [← htotal] at hnat
    exact (congrArg _ hnat).trans (by omega)

/-- **Every day number is that of its date.** -/
theorem dayNumber_ofDayNumber (n : Int) : (ofDayNumber n).dayNumber = n := by
  obtain ⟨k, length, day, -, hdate, -, -, htotal⟩ := ofDayNumber_spec n
  rw [hdate, dayNumber, daysBeforeMonth, Nat.add_sub_cancel, htotal, Int.add_sub_cancel]

/-- Every day number has a date. -/
theorem isValid_ofDayNumber (n : Int) : (ofDayNumber n).isValid := by
  obtain ⟨k, length, day, hk, hdate, hlower, hupper, -⟩ := ofDayNumber_spec n
  rw [hdate, isValid, daysInMonth, if_neg (Nat.succ_ne_zero k), Nat.add_sub_cancel, hk,
    Option.getD_some, Bool.and_eq_true, decide_eq_true_iff, decide_eq_true_iff]
  exact ⟨hlower, hupper⟩

/-- There are twelve months, of at most 31 days. -/
theorem bounds_of_isValid {d : CalendarDate} (h : d.isValid) : d.month ≤ 12 ∧ d.day ≤ 31 := by
  rw [isValid, Bool.and_eq_true, decide_eq_true_iff, decide_eq_true_iff, daysInMonth] at h
  split at h
  · omega
  · cases hmonth : (monthLengths (isLeapYear d.year))[d.month - 1]? with
    | none =>
      rw [hmonth, Option.getD_none] at h
      omega
    | some length =>
      rw [hmonth, Option.getD_some] at h
      have hle : ∀ leap : Bool, ∀ n ∈ monthLengths leap, n ≤ 31 := by decide
      have hcount : ∀ leap : Bool, (monthLengths leap).length = 12 := by decide
      have hlt := (List.getElem?_eq_some_iff.mp hmonth).1
      have hlength := hle _ length (List.mem_of_getElem? hmonth)
      rw [hcount] at hlt
      omega

end CalendarDate

/-! ### Times of day -/

namespace DateTime

/-- The milliseconds of the time that they are in UTC. -/
theorem toMillis_ofMillis (millis : Int) : (ofMillis millis).toMillis = millis := by
  have htime : ((ofMillis millis).timeOfDay : Int) = millis % millisPerDay := by
    have hpos : 0 ≤ millis % millisPerDay := Int.emod_nonneg _ (by decide)
    simp only [timeOfDay, ofMillis]
    omega
  rw [toMillis, htime]
  change millisPerDay * (CalendarDate.ofDayNumber (millis / millisPerDay)).dayNumber + _ = millis
  rw [CalendarDate.dayNumber_ofDayNumber, Int.mul_ediv_add_emod]

/-- In UTC, there is such a time of day. -/
theorem ofMillis_bounds (millis : Int) :
    (ofMillis millis).hour < 24 ∧ (ofMillis millis).minute < 60 ∧ (ofMillis millis).second < 60 ∧
      (ofMillis millis).milli < 1000 := by
  have hlt : millis % millisPerDay < millisPerDay := Int.emod_lt_of_pos _ (by decide)
  have hday : millisPerDay = 86400000 := rfl
  simp only [ofMillis]
  refine ⟨?_, ?_, ?_, ?_⟩ <;> omega

end DateTime

end QueryFilter
