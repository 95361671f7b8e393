import QueryFilter.Instant.Format
import QueryFilter.Proofs.Instant.Parts

/-!
# Instants read back

An instant of a year with four digits is written in the first of the forms that are tried when a
date is read: every number has all its digits, and the offset is that of UTC. So it is read back.

## Main definitions

* `Instant.hasPlainYear` — the instants of the years 0 to 9999

## Main results

* `Instant.text_eq` — instants of plain years are written with all their digits
* `Instant.ofText?_text` — instants of plain years are read back
-/

namespace QueryFilter

namespace Instant

open Text

/-! ### Plain years -/

/-- The year of an instant in UTC. -/
def year (i : Instant) : Int := (DateTime.ofMillis i.millis).date.year

/-- Whether an instant lies in one of the years 0 to 9999, which are written with four digits. -/
def hasPlainYear (i : Instant) : Bool := 0 ≤ i.year && i.year ≤ 9999

theorem text_eq {i : Instant} (h : i.hasPlainYear) :
    i.text = dateText (DateTime.ofMillis i.millis).date ++ ("T" ++
      (timeText (DateTime.ofMillis i.millis).hour (DateTime.ofMillis i.millis).minute
        (DateTime.ofMillis i.millis).second
        (paddedText 3 (DateTime.ofMillis i.millis).milli).toList ++ "Z")) := by
  have hyear : 0 ≤ i.year ∧ i.year ≤ 9999 := by simpa [hasPlainYear] using h
  have htext : yearText (DateTime.ofMillis i.millis).date.year =
      paddedText 4 (DateTime.ofMillis i.millis).date.year.toNat := if_pos hyear
  have hfraction : fractionText (paddedText 3 (DateTime.ofMillis i.millis).milli).toList =
      "." ++ paddedText 3 (DateTime.ofMillis i.millis).milli := by
    rw [fractionText, if_neg (paddedText_ne_nil _ _), String.ofList_toList]
  simp only [text, dateText, timeText, minuteText, htext, hfraction, String.append_assoc]

/-- The instant of the time that it is in UTC. -/
theorem toInstant?_ofMillis {i : Instant} (hfirst : firstYear ≤ i.year)
    (hlast : i.year ≤ lastYear) : (DateTime.ofMillis i.millis).toInstant? 0 = some i := by
  obtain ⟨hhour, hminute, hsecond, -⟩ := DateTime.ofMillis_bounds i.millis
  have hvalid : (DateTime.ofMillis i.millis).isValid := by
    simp only [DateTime.isValid, Bool.and_eq_true, decide_eq_true_eq]
    exact ⟨⟨⟨⟨⟨hfirst, hlast⟩, CalendarDate.isValid_ofDayNumber _⟩, hhour⟩, hminute⟩, hsecond.le⟩
  rw [DateTime.toInstant?, if_pos hvalid, DateTime.toMillis_ofMillis, Int.zero_mul, Int.sub_zero,
    ofMillis?, dif_pos ⟨i.notBefore, i.notAfter⟩]

/-- **Instants of plain years are read back.** -/
theorem ofText?_text {i : Instant} (h : i.hasPlainYear) : ofText? i.text = some i := by
  obtain ⟨hhour, hminute, hsecond, hmilli⟩ := DateTime.ofMillis_bounds i.millis
  have hyear : 0 ≤ i.year ∧ i.year ≤ 9999 := by simpa [hasPlainYear] using h
  have hdate : (DateTime.ofMillis i.millis).date.isValid := CalendarDate.isValid_ofDayNumber _
  have hdigits : ∀ c ∈ (paddedText 3 (DateTime.ofMillis i.millis).milli).toList, isDigit c :=
    fun c hc => isDigit_of_mem_paddedText hc
  have hread := toInstant?_ofMillis (Int.le_trans (by decide : firstYear ≤ 0) hyear.1)
    (Int.le_trans hyear.2 (by decide : 9999 ≤ lastYear))
  rw [text_eq h]
  refine ofText?_zoned hdate hyear (by omega) (by omega) (by omega) hdigits (by decide)
    (endsBare_singleton (by decide)) rfl ?_
  rw [milliOfFraction_paddedText hmilli]
  exact hread

end Instant

end QueryFilter
