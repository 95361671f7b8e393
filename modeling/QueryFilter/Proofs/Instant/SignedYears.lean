import QueryFilter.Proofs.Instant.ReadBack

/-!
# Years with a sign are not read back

Instants reach over more years than four digits can write, and an instant of such a year is written
with a sign before the year. No form of date text admits that together with the letter at the end:
the form with an offset wants four digits at once, and the forms that know years with a sign have no
offset. So of the instants that a date text can name, exactly those of the years 0 to 9999 are read
back from their text. A date text does not have to name such a year to leave these years: an offset
from UTC can move its instant over the end of the last one.

That a form without an offset cannot end in a letter is shown for all forms at once. Whatever is read
in them is made of a few characters, and the letter for UTC is not among them.

## Main definitions

* `Instant.isFormChar`, `Instant.Takes` — the characters of the forms without an offset, and a text
  of which they are taken

## Main results

* `Instant.takes_of_inForm` — a text in a form without an offset is made of these characters
* `Instant.readBack_eq` — which instants are read back from their text
-/

namespace QueryFilter

namespace Instant

open Text

/-! ### Characters of the forms without an offset -/

/-- The characters of a date text without an offset. -/
def isFormChar (c : Char) : Bool :=
  isBlank c || isDigit c || c = '+' || c = '-' || c = ':' || c = 'T' || c = '.'

/-- The first text is the second one with characters of date texts in front. -/
def Takes (cs rest : List Char) : Prop := ∃ taken, cs = taken ++ rest ∧ ∀ c ∈ taken, isFormChar c

namespace Takes

variable {cs ds rest : List Char}

theorem refl (cs : List Char) : Takes cs cs := ⟨[], rfl, List.forall_mem_nil _⟩

theorem trans (h : Takes cs ds) (h' : Takes ds rest) : Takes cs rest := by
  obtain ⟨as, rfl, has⟩ := h
  obtain ⟨bs, rfl, hbs⟩ := h'
  refine ⟨as ++ bs, (List.append_assoc as bs rest).symm, fun c hc => ?_⟩
  exact (List.mem_append.mp hc).elim (has c) (hbs c)

theorem cons {c : Char} (hc : isFormChar c) (cs : List Char) : Takes (c :: cs) cs :=
  ⟨[c], rfl, by simpa using hc⟩

end Takes

/-! ### What is read in a form -/

section Parts

variable {cs rest : List Char}

theorem takes_of_after {c : Char} (hc : isFormChar c) (h : after? c cs = some rest) :
    Takes cs rest := by
  rw [after?.eq_def] at h
  split at h
  · cases h
  · split at h
    · rename_i heq
      cases h
      exact .cons (heq ▸ hc) rest
    · cases h

theorem takes_skipBlanks (cs : List Char) : Takes cs (skipBlanks cs) := by
  refine ⟨cs.takeWhile isBlank, List.takeWhile_append_dropWhile.symm, fun c hc => ?_⟩
  simp [isFormChar, List.mem_takeWhile_imp hc]

theorem takes_of_digits {digits : List Char} (h : ∀ c ∈ digits, isDigit c) (rest : List Char) :
    Takes (digits ++ rest) rest :=
  ⟨digits, rfl, fun c hc => by simp [isFormChar, h c hc]⟩

theorem takes_of_shortNumber {width n : Nat} (h : shortNumber? width cs = some (n, rest)) :
    Takes cs rest := by
  rw [shortNumber?] at h
  split at h
  · cases h
  · cases h
    have hprefix : (cs.take width).takeWhile isDigit <+: cs :=
      (List.takeWhile_prefix _).trans (List.take_prefix _ _)
    have hdigits : ∀ c ∈ (cs.take width).takeWhile isDigit, isDigit c :=
      fun c hc => List.mem_takeWhile_imp hc
    have htakes := takes_of_digits hdigits (cs.drop ((cs.take width).takeWhile isDigit).length)
    rwa [List.prefix_iff_eq_append.mp hprefix] at htakes

theorem takes_of_looseNumber {width n : Nat} (h : looseNumber? width cs = some (n, rest)) :
    Takes cs rest :=
  (takes_skipBlanks cs).trans (takes_of_shortNumber h)

theorem takes_of_looseYear {year : Int} (h : looseYear? cs = some (year, rest)) :
    Takes cs rest := by
  have hblanks := takes_skipBlanks cs
  rw [looseYear?] at h
  split at h
  · rename_i digits hdigits
    obtain ⟨⟨n, left⟩, hnumber, heq⟩ := Option.map_eq_some_iff.mp h
    cases heq
    rw [hdigits] at hblanks
    exact hblanks.trans ((Takes.cons (by decide) digits).trans (takes_of_shortNumber hnumber))
  · rename_i digits hdigits
    obtain ⟨⟨n, left⟩, hnumber, heq⟩ := Option.map_eq_some_iff.mp h
    cases heq
    rw [hdigits] at hblanks
    exact hblanks.trans ((Takes.cons (by decide) digits).trans (takes_of_shortNumber hnumber))
  · obtain ⟨⟨n, left⟩, hnumber, heq⟩ := Option.map_eq_some_iff.mp h
    cases heq
    exact hblanks.trans (takes_of_shortNumber hnumber)

theorem takes_of_fraction {n : Nat} (h : fraction? cs = some (n, rest)) : Takes cs rest := by
  rw [fraction?.eq_def] at h
  split at h
  · rename_i digits
    split at h
    · cases h
    · cases h
      have hdigits : ∀ c ∈ digits.takeWhile isDigit, isDigit c :=
        fun c hc => List.mem_takeWhile_imp hc
      have htakes := takes_of_digits hdigits (digits.dropWhile isDigit)
      rw [List.takeWhile_append_dropWhile] at htakes
      exact (Takes.cons (by decide) digits).trans htakes
  · cases h
    exact .refl cs

theorem takes_of_separator {separator : Separator} (h : separator.after? cs = some rest) :
    Takes cs rest := by
  cases separator with
  | letter => exact takes_of_after (by decide) h
  | blanks =>
    cases h
    exact takes_skipBlanks cs

theorem takes_of_looseDate {date : CalendarDate} (h : looseDate? cs = some (date, rest)) :
    Takes cs rest := by
  simp only [looseDate?, Option.bind_eq_bind, Option.bind_eq_some_iff] at h
  obtain ⟨⟨year, c₁⟩, hyear, c₂, h₁, ⟨month, c₃⟩, hmonth, c₄, h₃, ⟨day, c₅⟩, hday, heq⟩ := h
  cases heq
  exact (takes_of_looseYear hyear).trans ((takes_of_after (by decide) h₁).trans
    ((takes_of_looseNumber hmonth).trans ((takes_of_after (by decide) h₃).trans
      (takes_of_looseNumber hday))))

theorem takes_of_looseMinute {hour minute : Nat}
    (h : looseMinute? cs = some (hour, minute, rest)) : Takes cs rest := by
  simp only [looseMinute?, Option.bind_eq_bind, Option.bind_eq_some_iff] at h
  obtain ⟨⟨hour, c₁⟩, hhour, c₂, h₁, ⟨minute, c₃⟩, hminute, heq⟩ := h
  cases heq
  exact (takes_of_looseNumber hhour).trans ((takes_of_after (by decide) h₁).trans
    (takes_of_looseNumber hminute))

theorem takes_of_time {date : CalendarDate} {form : Form} {t : DateTime}
    (h : form.time? date cs = some (t, rest)) : Takes cs rest := by
  cases form with
  | toSecond separator =>
    simp only [Form.time?, Option.bind_eq_bind, Option.bind_eq_some_iff] at h
    obtain ⟨c₁, h₀, ⟨hour, minute, c₂⟩, hminute, c₃, h₂, ⟨second, c₄⟩, hsecond, ⟨milli, c₅⟩, hmilli,
      heq⟩ := h
    cases heq
    exact (takes_of_separator h₀).trans ((takes_of_looseMinute hminute).trans
      ((takes_of_after (by decide) h₂).trans ((takes_of_looseNumber hsecond).trans
        (takes_of_fraction hmilli))))
  | toMinute =>
    simp only [Form.time?, Option.bind_eq_bind, Option.bind_eq_some_iff] at h
    obtain ⟨c₁, h₀, ⟨hour, minute, c₂⟩, hminute, heq⟩ := h
    cases heq
    exact (takes_of_separator h₀).trans (takes_of_looseMinute hminute)
  | dateOnly =>
    cases h
    exact .refl cs

end Parts

/-- **A text in a form without an offset** is made of the characters of these forms. -/
theorem takes_of_inForm {form : Form} {cs : List Char} {i : Instant} (h : inForm? form cs = some i) :
    Takes cs [] := by
  simp only [inForm?, Option.bind_eq_bind, Option.bind_eq_some_iff] at h
  obtain ⟨⟨date, c₁⟩, hdate, ⟨t, c₂⟩, htime, h⟩ := h
  split at h
  · rename_i hend
    rw [← List.isEmpty_iff.mp hend]
    exact (takes_of_looseDate hdate).trans (takes_of_time htime)
  · cases h

/-- A text with another character is in no form without an offset. -/
theorem inForm_eq_none {cs : List Char} {c : Char} (hmem : c ∈ cs) (hc : isFormChar c = false)
    (form : Form) : inForm? form cs = none := by
  refine Option.eq_none_iff_forall_ne_some.mpr fun i hi => ?_
  obtain ⟨taken, rfl, htaken⟩ := takes_of_inForm hi
  rw [List.append_nil] at hmem
  exact Bool.false_ne_true (hc.symm.trans (htaken c hmem))

/-! ### Instants of years with a sign -/

/-- The text of an instant ends with the letter for UTC. -/
theorem getLast_text (i : Instant) : i.text.toList.getLast? = some 'Z' := by
  simp [text, List.getLast?_cons]

/-- A text that starts with a sign has no year of four digits in front. -/
theorem withOffset_of_sign {sign : Char} (h : isDigit sign = false) (cs : List Char) :
    withOffset? (sign :: cs) = none := by
  have hyear : fullNumber? 4 (sign :: cs) = none := by
    simp [fullNumber?, h]
  rw [withOffset?, hyear]
  rfl

/-- Beyond the plain years, the text of an instant starts with a sign. -/
theorem exists_sign_text {i : Instant} (h : i.hasPlainYear = false) :
    ∃ sign body, (sign = '-' ∨ sign = '+') ∧ i.text.toList = sign :: body := by
  have hyear : ¬(0 ≤ i.year ∧ i.year ≤ 9999) := by
    simpa [hasPlainYear] using h
  have htext : yearText (DateTime.ofMillis i.millis).date.year =
      (if i.year < 0 then "-" else "+") ++ paddedText 4 i.year.natAbs := if_neg hyear
  by_cases hneg : i.year < 0
  · rw [if_pos hneg] at htext
    exact ⟨'-', i.text.toList.tail, .inl rfl, by simp [text, htext]⟩
  · rw [if_neg hneg] at htext
    exact ⟨'+', i.text.toList.tail, .inr rfl, by simp [text, htext]⟩

/-- The text of an instant beyond the plain years is no date text. -/
theorem ofText_text_eq_none {i : Instant} (h : i.hasPlainYear = false) : ofText? i.text = none := by
  obtain ⟨sign, body, hsign, htext⟩ := exists_sign_text h
  have hfirst : isDigit sign = false ∧ isBlank sign = false := by
    rcases hsign with rfl | rfl
    · decide
    · decide
  have hlast := getLast_text i
  have htrim : trimChars i.text.toList = i.text.toList := by
    refine trimChars_of_not_isBlank ?_ ?_
    · rw [htext]
      rintro c ⟨⟩
      exact hfirst.2
    · rw [EndsBare, hlast]
      rintro c ⟨⟩
      decide
  have hoffset : withOffset? i.text.toList = none := htext ▸ withOffset_of_sign hfirst.1 body
  have hforms : ∀ form ∈ forms, inForm? form i.text.toList = none := fun form _ =>
    inForm_eq_none (List.mem_of_getLast? hlast) (by decide) form
  rw [ofText?, htrim, ofChars?, hoffset]
  exact List.findSome?_eq_none_iff.mpr hforms

/-- **Which instants are read back.** An instant is read back from its text if it lies in the years
0 to 9999, and otherwise its text is no date text. -/
theorem readBack_eq (i : Instant) : ofText? i.text = if i.hasPlainYear then some i else none := by
  cases h : i.hasPlainYear with
  | true => exact ofText?_text h
  | false => exact ofText_text_eq_none h

/-- The last half hour of the year 9999 in a place that is an hour behind UTC. -/
theorem last_half_hour_not_readBack : ∃ i, ofText? "9999-12-31T23:30:00-01:00" = some i ∧
    i.text = "+10000-01-01T00:30:00.000Z" ∧ ofText? i.text = none := by
  refine ⟨⟨253402302600000, by decide, by decide⟩, ?_⟩
  decide +kernel

end Instant

end QueryFilter
