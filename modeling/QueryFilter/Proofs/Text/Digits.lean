import Mathlib.Algebra.Order.Group.Nat
import QueryFilter.Text.Numeral

/-!
# Digits read back

The digits of a number stand for that number, also with zeros in front of them, and a number of
fewer digits than a width is padded to exactly that width.

## Main results

* `Text.natOfDigits_toDigits` — the digits of a number stand for it
* `Text.natOfDigits_paddedText`, `Text.length_paddedText` — so do padded digits, and they fill the
  width
-/

namespace QueryFilter

namespace Text

theorem isDigit_eq_isDigit (c : Char) : isDigit c = c.isDigit := by
  simp [isDigit, Char.isDigit, Char.le_def]

theorem toNat_bounds_of_isDigit {c : Char} (h : isDigit c) : 48 ≤ c.toNat ∧ c.toNat ≤ 57 := by
  simpa [isDigit, Char.le_def, UInt32.le_iff_toNat_le] using h

theorem isDigit_of_mem_toDigits {c : Char} {n : Nat} (h : c ∈ Nat.toDigits 10 n) : isDigit c := by
  rw [isDigit_eq_isDigit]
  exact Nat.isDigit_of_mem_toDigits (by decide) (by decide) h

@[simp] theorem natOfDigits_toDigits (n : Nat) : natOfDigits (Nat.toDigits 10 n) = n :=
  Nat.ofDigitChars_ten_toDigits

/-- The digits of a positive number do not start with a zero. -/
theorem head?_toDigits_ne {n : Nat} (h : 0 < n) : (Nat.toDigits 10 n).head? ≠ some '0' := by
  induction n using Nat.strong_induction_on with
  | _ n ih =>
    by_cases hn : n < 10
    · rw [Nat.toDigits_of_lt_base hn]
      have hfirst : ∀ m < 10, 0 < m → [Nat.digitChar m].head? ≠ some '0' := by decide
      exact hfirst n hn h
    · obtain ⟨d, ds, hdigits⟩ :=
        List.exists_cons_of_ne_nil (Nat.toDigits_ne_nil (n := n / 10) (b := 10))
      have hfirst := ih (n / 10) (by omega) (by omega)
      rw [Nat.toDigits_of_base_le (by decide) (by omega), hdigits]
      rwa [hdigits] at hfirst

theorem natOfDigits_append (ds es : List Char) :
    natOfDigits (ds ++ es) = 10 ^ es.length * natOfDigits ds + natOfDigits es := by
  have happend : Nat.ofDigitChars 10 (ds ++ es) 0 =
      10 ^ es.length * Nat.ofDigitChars 10 ds 0 + Nat.ofDigitChars 10 es 0 := by
    rw [Nat.ofDigitChars_append, Nat.ofDigitChars_eq_ofDigitChars_zero]
  exact happend

/-- Digits stand for less than one more digit would. -/
theorem natOfDigits_lt {ds : List Char} (h : ∀ c ∈ ds, isDigit c) :
    natOfDigits ds < 10 ^ ds.length := by
  induction ds with
  | nil => decide
  | cons d ds ih =>
    have hfirst : natOfDigits [d] ≤ 9 := by
      have hdigit := toNat_bounds_of_isDigit (h d List.mem_cons_self)
      simp only [natOfDigits, List.foldl_cons, List.foldl_nil, digitValue, Char.reduceToNat]
      omega
    have hrest := ih fun c hc => h c (List.mem_cons_of_mem d hc)
    have hmul := Nat.mul_le_mul_left (10 ^ ds.length) hfirst
    have happend := natOfDigits_append [d] ds
    rw [List.singleton_append] at happend
    rw [happend, List.length_cons, Nat.pow_succ]
    omega

theorem toList_paddedText (width n : Nat) : (paddedText width n).toList =
    List.replicate (width - (Nat.toDigits 10 n).length) '0' ++ Nat.toDigits 10 n := by
  rw [paddedText, String.toList_ofList]

theorem paddedText_ne_nil (width n : Nat) : (paddedText width n).toList ≠ [] := by
  rw [toList_paddedText]
  exact List.append_ne_nil_of_right_ne_nil _ Nat.toDigits_ne_nil

theorem isDigit_of_mem_paddedText {c : Char} {width n : Nat}
    (h : c ∈ (paddedText width n).toList) : isDigit c := by
  rw [toList_paddedText, List.mem_append] at h
  rcases h with h | h
  · rw [(List.mem_replicate.mp h).2]
    rfl
  · exact isDigit_of_mem_toDigits h

@[simp] theorem natOfDigits_paddedText (width n : Nat) :
    natOfDigits (paddedText width n).toList = n := by
  have hzeros : ∀ k, natOfDigits (List.replicate k '0') = 0 :=
    fun k => Nat.ofDigitChars_replicate_zero
  rw [toList_paddedText, natOfDigits_append, hzeros, natOfDigits_toDigits, Nat.mul_zero,
    Nat.zero_add]

/-- A number below a power of ten fills as many digits, and no more. -/
theorem length_paddedText {width n : Nat} (hwidth : 0 < width) (h : n < 10 ^ width) :
    (paddedText width n).toList.length = width := by
  have hlength := (Nat.length_toDigits_le_iff (b := 10) (by decide) hwidth).mpr h
  rw [toList_paddedText, List.length_append, List.length_replicate]
  omega

end Text

end QueryFilter
