import Mathlib.Data.List.TakeWhile
import QueryFilter.Json.Reader
import QueryFilter.Proofs.Outcome
import QueryFilter.Proofs.Text.Digits

/-!
# What JSON values are read from

The first character of a value decides what it is read as. A value that starts like a number is a
double, or the integer of digits that fit 64 bits; one that starts with a quote is a string; and the
other ones are of other kinds. So the kind of a value that has been read says how it was read.

## Main results

* `Json.readNumber_cases` — what a number is read as
* `Json.readWith_cases` — the ways to read a value
* `Json.exists_of_finish` — what is left after the value of a whole text
-/

namespace QueryFilter

namespace Json

open Text

/-! ### Numbers -/

section Number

variable {negative : Bool} {significand : Nat} {power : Int} {j : Json} {cs rest : List Char}

theorem exists_real_of_finishReal (h : finishReal negative significand power cs = .ok (j, rest)) :
    ∃ x, j = .real x := by
  rw [finishReal] at h
  split at h
  · cases h
    exact ⟨_, rfl⟩
  · cases h

theorem exists_real_of_readExponent
    (h : readExponent negative significand power cs = .ok (j, rest)) : ∃ x, j = .real x := by
  rw [readExponent] at h
  simp only at h
  split at h
  · cases h
  · split at h
    · split at h
      · exact exists_real_of_finishReal h
      · split at h
        · cases h
        · cases h
          exact ⟨_, rfl⟩
    · cases h

theorem exists_real_of_readPower (h : readPower negative significand power cs = .ok (j, rest)) :
    ∃ x, j = .real x := by
  rw [readPower.eq_def] at h
  split at h
  · exact exists_real_of_finishReal h
  · split at h
    · exact exists_real_of_readExponent h
    · exact exists_real_of_finishReal h

theorem exists_real_of_readFraction
    (h : readFraction negative significand power cs = .ok (j, rest)) : ∃ x, j = .real x := by
  rw [readFraction.eq_def] at h
  split at h
  · cases h
  · split at h
    · exact exists_real_of_readPower h
    · cases h

/-- Digits with nothing after them are an integer, if they can be; all else is a double. -/
theorem readTail_cases (h : readTail negative significand cs = .ok (j, rest)) :
    j = integerOf negative significand ∨ ∃ x, j = .real x := by
  rw [readTail] at h
  split at h
  · exact .inr (exists_real_of_readFraction h)
  · split at h
    · cases h
      exact .inl rfl
    · exact .inr (exists_real_of_readPower h)

/-- Digits are taken only while the number fits 64 bits. -/
theorem takeDigits_le {count : Nat} (h : significand ≤ 18446744073709551615) :
    (takeDigits significand count cs).1 ≤ 18446744073709551615 := by
  induction cs generalizing significand count with
  | nil => exact h
  | cons c cs ih =>
    rw [takeDigits]
    split
    · rename_i hfits
      exact ih (of_decide_eq_true (Bool.and_eq_true_iff.mp hfits).2)
    · exact h

/-- **What a number is read as**: a double, or the integer of digits that fit 64 bits. -/
theorem readNumber_cases (h : readNumber negative cs = .ok (j, rest)) :
    (∃ x, j = .real x) ∨ ∃ n ≤ 18446744073709551615, j = integerOf negative n := by
  have htail : ∀ n cs, n ≤ 18446744073709551615 → readTail negative n cs = .ok (j, rest) →
      (∃ x, j = .real x) ∨ ∃ n ≤ 18446744073709551615, j = integerOf negative n := by
    intro n cs hn h
    rcases readTail_cases h with hinteger | hreal
    · exact .inr ⟨n, hn, hinteger⟩
    · exact .inl hreal
  rw [readNumber.eq_def] at h
  split at h
  · cases h
  · rename_i c digits
    split at h
    · split at h
      · cases h
      · exact htail 0 digits (Nat.zero_le _) h
    · split at h
      · rename_i hdigit
        have hvalue : digitValue c ≤ 9 := by
          have hbounds := toNat_bounds_of_isDigit hdigit
          show c.toNat - 48 ≤ 9
          omega
        exact htail _ _ (takeDigits_le (by omega)) h
      · cases h

end Number

/-! ### Values -/

/-- **The ways to read a value.** -/
theorem readWith_cases {inner : Option (List Char → Result Json)} {j : Json} {cs rest : List Char}
    (h : readWith inner cs = .ok (j, rest)) :
    j = .null ∨ (∃ b, j = .boolean b) ∨
      (∃ body text, skipSpace cs = '"' :: body ∧ readString body = .ok (text, rest) ∧
        j = .string text) ∨
      (∃ negative body, readNumber negative body = .ok (j, rest)) ∨
      (∃ items, j = .array items) ∨ ∃ entries, j = .object entries := by
  rw [readWith] at h
  split at h
  · cases h
  · rename_i c body hcs
    split at h
    · obtain ⟨_, -, heq⟩ := Except.map_eq_ok_iff.mp h
      cases heq
      exact .inl rfl
    split at h
    · obtain ⟨_, -, heq⟩ := Except.map_eq_ok_iff.mp h
      cases heq
      exact .inr (.inl ⟨true, rfl⟩)
    split at h
    · obtain ⟨_, -, heq⟩ := Except.map_eq_ok_iff.mp h
      cases heq
      exact .inr (.inl ⟨false, rfl⟩)
    split at h
    · rename_i hquote
      obtain ⟨⟨text, rest'⟩, hbody, heq⟩ := Except.map_eq_ok_iff.mp h
      cases heq
      exact .inr (.inr (.inl ⟨body, text, hquote ▸ hcs, hbody, rfl⟩))
    split at h
    · exact .inr (.inr (.inr (.inl ⟨true, body, h⟩)))
    split at h
    · exact .inr (.inr (.inr (.inl ⟨false, c :: body, h⟩)))
    split at h
    · split at h
      · cases h
      · split at h
        · obtain ⟨⟨items, rest'⟩, -, heq⟩ := Except.map_eq_ok_iff.mp h
          cases heq
          exact .inr (.inr (.inr (.inr (.inl ⟨items, rfl⟩))))
        · obtain ⟨⟨entries, rest'⟩, -, heq⟩ := Except.map_eq_ok_iff.mp h
          cases heq
          exact .inr (.inr (.inr (.inr (.inr ⟨_, rfl⟩))))
    · cases h

/-- After the value of a whole text there are only blanks. -/
theorem exists_of_finish {α : Type} {result : Result α} {a : α} (h : finish result = .ok a) :
    ∃ rest, result = .ok (a, rest) ∧ ∀ c ∈ rest, isSpace c := by
  rw [finish.eq_def] at h
  split at h
  · cases h
  · rename_i rest
    split at h
    · rename_i hend
      cases h
      exact ⟨rest, rfl, List.dropWhile_eq_nil_iff.mp hend⟩
    · cases h

end Json

end QueryFilter
