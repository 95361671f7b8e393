import Mathlib.Logic.Function.Iterate
import QueryFilter.Proofs.Instant.Calendar

/-!
# Day numbers count days

The number of a date is computed from the lengths of years and months before it. What it should be is
a count: how often one has to go on to the next day to get from 1970-01-01 to the date, or from the
date to 1970-01-01 if it lies before. Going on to the next day is the calendar itself: the next day
of the month, or the first one of the next month, or of the next year.

Each day has the number after that of the day before, and no two dates have the same number. The
first is about the ends of months and years, where the lengths have to fit together; the second makes
a count in one direction enough for dates on both sides.

## Main definitions

* `CalendarDate.next` — the next day
* `CalendarDate.IsDaysAfter` — a date that is a number of days after another

## Main results

* `CalendarDate.dayNumber_next` — the next day has the next number
* `CalendarDate.eq_of_dayNumber_eq` — a day number has one date
* `CalendarDate.isDaysAfter_dayNumber` — the number of a date counts the days since 1970-01-01
-/

namespace QueryFilter

namespace CalendarDate

/-- The next day: of the same month, of the next one, or of the next year. -/
def next (d : CalendarDate) : CalendarDate :=
  if d.day < daysInMonth d.year d.month then { d with day := d.day + 1 }
  else if d.month < 12 then ⟨d.year, d.month + 1, 1⟩
  else ⟨d.year + 1, 1, 1⟩

/-- The second date is `n` days after the first one, or `-n` days before it. -/
def IsDaysAfter (n : Int) (d e : CalendarDate) : Prop := next^[n.toNat] d = next^[(-n).toNat] e

/-! ### Months -/

theorem month_bounds_of_isValid {d : CalendarDate} (h : d.isValid) :
    1 ≤ d.month ∧ d.month ≤ 12 ∧ 1 ≤ d.day ∧ d.day ≤ daysInMonth d.year d.month := by
  obtain ⟨hmonth, -⟩ := bounds_of_isValid h
  simp only [isValid, Bool.and_eq_true, decide_eq_true_eq] at h
  refine ⟨?_, hmonth, h.1, h.2⟩
  by_contra hzero
  have hnone : daysInMonth d.year d.month = 0 := if_pos (by omega)
  omega

/-- A month ends where the next one begins. -/
theorem daysBeforeMonth_add (year : Int) {month : Nat} (hlower : 1 ≤ month) (hupper : month < 12) :
    daysBeforeMonth year month + daysInMonth year month = daysBeforeMonth year (month + 1) := by
  have htable : ∀ leap : Bool, ∀ k < 11, ((monthLengths leap).take k).foldr (· + ·) 0 +
      ((monthLengths leap)[k]?).getD 0 = ((monthLengths leap).take (k + 1)).foldr (· + ·) 0 := by
    decide
  obtain ⟨k, rfl⟩ := Nat.exists_eq_add_of_le' hlower
  exact htable _ k (by omega)

/-- The last month ends with the year. -/
theorem daysBeforeMonth_december (year : Int) :
    ((daysBeforeMonth year 12 + daysInMonth year 12 : Nat) : Int) =
      daysBeforeYear (year + 1) - daysBeforeYear year := by
  have htable : ∀ leap : Bool, ((monthLengths leap).take 11).foldr (· + ·) 0 +
      ((monthLengths leap)[11]?).getD 0 = (monthLengths leap).foldr (· + ·) 0 := by
    decide
  rw [← sum_monthLengths, ← htable]
  rfl

/-- Months come one after the other. -/
theorem daysBeforeMonth_le (year : Int) {month month' : Nat} (hlower : 1 ≤ month)
    (h : month < month') (hupper : month' ≤ 12) :
    daysBeforeMonth year month + daysInMonth year month ≤ daysBeforeMonth year month' := by
  induction month', h using Nat.le_induction with
  | base => exact (daysBeforeMonth_add year hlower (by omega)).le
  | succ k hk ih =>
    have hnext := daysBeforeMonth_add year (by omega : 1 ≤ k) (by omega)
    have hbefore := ih (by omega)
    omega

/-! ### Years -/

/-- Years come one after the other. -/
theorem daysBeforeYear_le {year year' : Int} (h : year < year') :
    daysBeforeYear (year + 1) ≤ daysBeforeYear year' := by
  simp only [daysBeforeYear]
  omega

/-- A date lies in its year. -/
theorem dayNumber_bounds {d : CalendarDate} (h : d.isValid) :
    daysBeforeYear d.year ≤ d.dayNumber + epoch ∧
      d.dayNumber + epoch < daysBeforeYear (d.year + 1) := by
  obtain ⟨hlower, hupper, hday, hlength⟩ := month_bounds_of_isValid h
  have hyear := daysBeforeMonth_december d.year
  have hmonth : daysBeforeMonth d.year d.month + daysInMonth d.year d.month ≤
      daysBeforeMonth d.year 12 + daysInMonth d.year 12 := by
    rcases Nat.lt_or_eq_of_le hupper with hlt | heq
    · exact (daysBeforeMonth_le d.year hlower hlt (Nat.le_refl 12)).trans (Nat.le_add_right _ _)
    · rw [heq]
  rw [dayNumber]
  omega

/-! ### The next day -/

theorem isValid_first (year : Int) {month : Nat} (hlower : 1 ≤ month) (hupper : month ≤ 12) :
    isValid ⟨year, month, 1⟩ := by
  have htable : ∀ leap : Bool, ∀ k < 12, 1 ≤ ((monthLengths leap)[k]?).getD 0 := by decide
  obtain ⟨k, rfl⟩ := Nat.exists_eq_add_of_le' hlower
  have hlength : 1 ≤ daysInMonth year (k + 1) := htable _ k (by omega)
  simp only [isValid, hlength, decide_true, Bool.and_self, Nat.le_refl]

theorem isValid_next {d : CalendarDate} (h : d.isValid) : d.next.isValid := by
  obtain ⟨hlower, hupper, hday, -⟩ := month_bounds_of_isValid h
  rw [next]
  split_ifs with hlast hyear
  · simp only [isValid, Bool.and_eq_true, decide_eq_true_eq]
    exact ⟨by omega, hlast⟩
  · exact isValid_first d.year (by omega) hyear
  · exact isValid_first (d.year + 1) (Nat.le_refl 1) (by decide)

/-- **The next day has the next number.** -/
theorem dayNumber_next {d : CalendarDate} (h : d.isValid) :
    d.next.dayNumber = d.dayNumber + 1 := by
  obtain ⟨hlower, hupper, hday, hlength⟩ := month_bounds_of_isValid h
  rw [next]
  split_ifs with hlast hyear
  · simp only [dayNumber]
    omega
  · have hmonth := daysBeforeMonth_add d.year hlower hyear
    simp only [dayNumber]
    omega
  · have hmonth : d.month = 12 := by omega
    have hdecember := daysBeforeMonth_december d.year
    have hjanuary : daysBeforeMonth (d.year + 1) 1 = 0 := rfl
    simp only [dayNumber, hmonth, hjanuary]
    rw [hmonth] at hlast hlength
    omega

theorem dayNumber_iterate_next {d : CalendarDate} (h : d.isValid) (n : Nat) :
    (next^[n] d).isValid ∧ (next^[n] d).dayNumber = d.dayNumber + n := by
  induction n with
  | zero => exact ⟨h, (Int.add_zero _).symm⟩
  | succ n ih =>
    rw [Function.iterate_succ_apply']
    refine ⟨isValid_next ih.1, ?_⟩
    rw [dayNumber_next ih.1, ih.2]
    omega

/-! ### Counting days -/

/-- **A day number has one date.** -/
theorem eq_of_dayNumber_eq {d e : CalendarDate} (hd : d.isValid) (he : e.isValid)
    (h : d.dayNumber = e.dayNumber) : d = e := by
  have hdyear := dayNumber_bounds hd
  have heyear := dayNumber_bounds he
  have hyear : d.year = e.year := by
    rcases Int.lt_trichotomy d.year e.year with hlt | heq | hgt
    · have := daysBeforeYear_le hlt
      omega
    · exact heq
    · have := daysBeforeYear_le hgt
      omega
  obtain ⟨hdlower, hdupper, hdday, hdlength⟩ := month_bounds_of_isValid hd
  obtain ⟨helower, heupper, heday, helength⟩ := month_bounds_of_isValid he
  obtain ⟨year, month, day⟩ := d
  obtain ⟨year', month', day'⟩ := e
  obtain rfl : year = year' := hyear
  simp only [dayNumber] at *
  have hmonth : month = month' := by
    rcases Nat.lt_trichotomy month month' with hlt | heq | hgt
    · have := daysBeforeMonth_le year hdlower hlt heupper
      omega
    · exact heq
    · have := daysBeforeMonth_le year helower hgt hdupper
      omega
  subst hmonth
  obtain rfl : day = day' := by omega
  rfl

/-- **The number of a date counts the days** since 1970-01-01, or until then if it is negative. -/
theorem isDaysAfter_dayNumber {d : CalendarDate} (h : d.isValid) :
    IsDaysAfter d.dayNumber ⟨1970, 1, 1⟩ d := by
  have hepoch : isValid ⟨1970, 1, 1⟩ := by decide
  have hzero : dayNumber ⟨1970, 1, 1⟩ = 0 := by decide
  obtain ⟨hvalid, hafter⟩ := dayNumber_iterate_next hepoch d.dayNumber.toNat
  obtain ⟨hvalid', hbefore⟩ := dayNumber_iterate_next h (-d.dayNumber).toNat
  refine eq_of_dayNumber_eq hvalid hvalid' ?_
  rw [hafter, hbefore, hzero]
  omega

end CalendarDate

end QueryFilter
