import QueryFilter.Json.Reader
import QueryFilter.Json.Writer
import QueryFilter.Proofs.Text.Digits

/-!
# JSON numbers and strings read back

A whole number of 64 bits is read back from its digits, provided that what follows does not go on
with the number. A string is read back from its text whatever it is and whatever follows: each
character is written as itself or as an escape, and read before the rest is looked at.

## Main definitions

* `Json.endsNumber` — a text that does not go on with a number

## Main results

* `Json.readNumber_toDigits` — digits are read back
* `Json.readChars_writeChar` — a character is read back
* `Json.readChars_flatMap_writeChar` — so is a string
-/

namespace QueryFilter

namespace Json

open Text

/-! ### Numbers -/

/-- Whether a text does not go on with a number that ends before it. -/
def endsNumber (cs : List Char) : Bool :=
  !cs.head?.any fun c => isDigit c || c = '.' || c = 'e' || c = 'E'

theorem endsNumber_iff {cs : List Char} : endsNumber cs ↔ ∀ c, cs.head? = some c →
    isDigit c = false ∧ c ≠ '.' ∧ c ≠ 'e' ∧ c ≠ 'E' := by
  cases cs with
  | nil => simp [endsNumber]
  | cons c cs => simp [endsNumber, and_assoc]

/-- Digits are taken as long as the number fits 64 bits. -/
theorem takeDigits_append {ds rest : List Char} {significand count : Nat}
    (hds : ∀ d ∈ ds, isDigit d)
    (hfits : Nat.ofDigitChars 10 ds significand ≤ 18446744073709551615)
    (hrest : ∀ c, rest.head? = some c → isDigit c = false) :
    takeDigits significand count (ds ++ rest) =
      (Nat.ofDigitChars 10 ds significand, count + ds.length, rest) := by
  induction ds generalizing significand count with
  | nil =>
    cases rest with
    | nil => rfl
    | cons c rest => simp [takeDigits, hrest c rfl]
  | cons d ds ih =>
    obtain ⟨hd, hds⟩ := List.forall_mem_cons.mp hds
    have hvalue : significand * 10 + digitValue d = 10 * significand + (d.toNat - '0'.toNat) := by
      rw [digitValue, Nat.mul_comm]
    rw [Nat.ofDigitChars_cons] at hfits ⊢
    have hle : significand * 10 + digitValue d ≤ 18446744073709551615 := by
      refine le_trans ?_ hfits
      rw [hvalue, Nat.ofDigitChars_eq_ofDigitChars_zero]
      exact (Nat.le_mul_of_pos_left _ (Nat.pow_pos (by decide))).trans (Nat.le_add_right _ _)
    rw [List.cons_append, takeDigits, if_pos (by simp [hd, hle]), hvalue, ih hds hfits,
      List.length_cons]
    congr 2
    omega

theorem readTail_of_endsNumber {negative : Bool} {n : Nat} {rest : List Char}
    (h : endsNumber rest) : readTail negative n rest = .ok (integerOf negative n, rest) := by
  cases rest with
  | nil => rfl
  | cons c rest =>
    obtain ⟨hdigit, hdot, he, hE⟩ := endsNumber_iff.mp h c rfl
    have hdrop : (c :: rest).dropWhile isDigit = c :: rest := by
      rw [List.dropWhile_cons_of_neg (by simp [hdigit])]
    have htake : (c :: rest).takeWhile isDigit = [] := by
      rw [List.takeWhile_cons_of_neg (by simp [hdigit])]
    rw [readTail, hdrop, htake]
    simp [he, hE, hdot]

/-- The digits of a number of 64 bits are read back, with the sign that they are given. -/
theorem readNumber_toDigits {negative : Bool} {n : Nat} {rest : List Char}
    (hn : n ≤ 18446744073709551615) (h : endsNumber rest) :
    readNumber negative (Nat.toDigits 10 n ++ rest) = .ok (integerOf negative n, rest) := by
  have hrest : ∀ c, rest.head? = some c → isDigit c = false :=
    fun c hc => (endsNumber_iff.mp h c hc).1
  rcases Nat.eq_zero_or_pos n with rfl | hpos
  · have hany : rest.head?.any isDigit = false := by
      cases rest with
      | nil => rfl
      | cons c rest => exact hrest c rfl
    rw [Nat.toDigits_zero, List.singleton_append, readNumber, if_pos rfl, hany,
      if_neg (by decide), readTail_of_endsNumber h]
  · obtain ⟨d, ds, hdigits⟩ := List.exists_cons_of_ne_nil (Nat.toDigits_ne_nil (b := 10) (n := n))
    have hfirst : d ≠ '0' := fun hd => head?_toDigits_ne hpos (by rw [hdigits, hd]; rfl)
    have hall : ∀ c ∈ d :: ds, isDigit c := fun c hc => isDigit_of_mem_toDigits (hdigits ▸ hc)
    obtain ⟨hd, hds⟩ := List.forall_mem_cons.mp hall
    have hvalue : Nat.ofDigitChars 10 ds (digitValue d) = n := by
      rw [← Nat.ofDigitChars_ten_toDigits (n := n), hdigits, Nat.ofDigitChars_cons, Nat.mul_zero,
        Nat.zero_add]
      rfl
    rw [hdigits, List.cons_append, readNumber, if_neg hfirst, if_pos hd,
      takeDigits_append hds (hvalue ▸ hn) hrest]
    simp only [hvalue]
    exact readTail_of_endsNumber h

theorem skipSpace_of_not_isSpace {c : Char} (h : isSpace c = false) (cs : List Char) :
    skipSpace (c :: cs) = c :: cs := by
  rw [skipSpace, List.dropWhile_cons_of_neg (by simp [h])]

/-- A digit is neither blank, nor a minus sign, nor does it start a word or a string. -/
theorem ne_of_isDigit {c : Char} (h : isDigit c) :
    isSpace c = false ∧ c ≠ 'n' ∧ c ≠ 't' ∧ c ≠ 'f' ∧ c ≠ '"' ∧ c ≠ '-' ∧ c ≠ ']' ∧ c ≠ '\x7d' := by
  refine ⟨?_, ?_, ?_, ?_, ?_, ?_, ?_, ?_⟩
  · by_contra hspace
    rw [Bool.not_eq_false] at hspace
    simp only [isSpace, Bool.or_eq_true, decide_eq_true_eq] at hspace
    rcases hspace with ((rfl | rfl) | rfl) | rfl <;> exact absurd h (by decide)
  all_goals
    rintro rfl
    exact absurd h (by decide)

/-- A whole number that fits 64 bits, signed or unsigned, is read back. -/
theorem readWith_intText {inner : Option (List Char → Result Json)} {n : Int} {rest : List Char}
    (hlower : -9223372036854775808 ≤ n) (hupper : n ≤ 18446744073709551615)
    (h : endsNumber rest) :
    readWith inner ((intText n).toList ++ rest) = .ok (.integer n, rest) := by
  rw [intText]
  split
  · rename_i hneg
    rw [String.toList_ofList, List.cons_append, readWith,
      skipSpace_of_not_isSpace (by decide)]
    have hread : readNumber true (Nat.toDigits 10 n.natAbs ++ rest) = .ok (.integer n, rest) := by
      rw [readNumber_toDigits (by omega) h, integerOf, if_neg (by decide), if_pos]
      · congr 3
        omega
      · rw [Bool.and_eq_true, decide_eq_true_iff, decide_eq_true_iff]
        omega
    simpa using hread
  · rename_i hneg
    obtain ⟨d, ds, hdigits⟩ :=
      List.exists_cons_of_ne_nil (Nat.toDigits_ne_nil (b := 10) (n := n.natAbs))
    have hd : isDigit d := isDigit_of_mem_toDigits (hdigits ▸ List.mem_cons_self)
    obtain ⟨hspace, hn, ht, hf, hquote, hminus, -, -⟩ := ne_of_isDigit hd
    have hread : readNumber false (Nat.toDigits 10 n.natAbs ++ rest) = .ok (.integer n, rest) := by
      rw [readNumber_toDigits (by omega) h, integerOf, if_pos (by decide)]
      congr 3
      omega
    rw [natText, String.toList_ofList, hdigits, List.cons_append, readWith,
      skipSpace_of_not_isSpace hspace]
    rw [hdigits, List.cons_append] at hread
    simpa [hn, ht, hf, hquote, hminus, hd] using hread

/-! ### Strings -/

theorem hexValue?_digitChar {d : Nat} (h : d < 16) : hexValue? (Nat.digitChar d) = some d := by
  have hall : ∀ d < 16, hexValue? (Nat.digitChar d) = some d := by decide
  exact hall d h

/-- A control character is read back from its code unit. -/
theorem readEscape_control {c : Char} (hc : c.toNat < 0x20) (rest : List Char) :
    readEscape ('u' :: '0' :: '0' :: Nat.digitChar (c.toNat / 16) :: Nat.digitChar (c.toNat % 16) ::
      rest) = .ok (c, rest) := by
  have hunit : hex4? ('0' :: '0' :: Nat.digitChar (c.toNat / 16) :: Nat.digitChar (c.toNat % 16) ::
      rest) = some (c.toNat, rest) := by
    rw [hex4?, hexValue?_digitChar (d := c.toNat / 16) (by omega),
      hexValue?_digitChar (d := c.toNat % 16) (by omega)]
    simp only [show hexValue? '0' = some 0 by decide]
    congr 2
    omega
  have hlong : ¬ utf8Length ('0' :: '0' :: Nat.digitChar (c.toNat / 16) ::
      Nat.digitChar (c.toNat % 16) :: rest) < 4 := by
    have hsize : ∀ d : Char, 1 ≤ d.utf8Size := fun d => d.utf8Size_pos
    have h₁ := hsize '0'
    have h₂ := hsize (Nat.digitChar (c.toNat / 16))
    have h₃ := hsize (Nat.digitChar (c.toNat % 16))
    simp only [utf8Length_cons]
    omega
  have hlow : isLowSurrogate c.toNat = false := by
    rw [isLowSurrogate, Bool.and_eq_false_iff, decide_eq_false_iff_not]
    omega
  have hhigh : isHighSurrogate c.toNat = false := by
    rw [isHighSurrogate, Bool.and_eq_false_iff, decide_eq_false_iff_not]
    omega
  rw [readEscape, if_pos rfl, readUnit, if_neg hlong, hunit]
  simp [readPair, hlow, hhigh]

/-- A character is read back from how it is written, before what follows it. -/
theorem readChars_writeChar (c : Char) (rest : List Char) :
    readChars (writeChar c ++ rest) =
      (readChars rest).map fun (text, after) => (c :: text, after) := by
  have hescape : ∀ {cs more : List Char}, readEscape cs = .ok (c, more) →
      readChars ('\\' :: cs) = (readChars more).map fun (text, after) => (c :: text, after) := by
    intro cs more h
    rw [readChars, if_neg (by decide), if_pos rfl]
    split
    · rename_i he
      rw [h] at he
      cases he
    · rename_i he
      rw [h] at he
      cases he
      rfl
  rw [writeChar]
  split_ifs with hquote hb hf hn hr ht hcontrol
  · refine hescape ?_
    rcases Bool.or_eq_true_iff.mp hquote with hc | hc
    · rw [of_decide_eq_true hc]
      rfl
    · rw [of_decide_eq_true hc]
      rfl
  · exact hescape (by rw [hb]; rfl)
  · exact hescape (by rw [hf]; rfl)
  · exact hescape (by rw [hn]; rfl)
  · exact hescape (by rw [hr]; rfl)
  · exact hescape (by rw [ht]; rfl)
  · exact hescape (readEscape_control hcontrol rest)
  · have hne : c ≠ '"' ∧ c ≠ '\\' := by simpa using hquote
    rw [List.singleton_append, readChars, if_neg hne.1, if_neg hne.2, if_neg hcontrol]

/-- **Strings are read back**, whatever is in them. -/
theorem readChars_flatMap_writeChar (cs rest : List Char) :
    readChars (cs.flatMap writeChar ++ '"' :: rest) = .ok (cs, rest) := by
  induction cs with
  | nil =>
    rw [List.flatMap_nil, List.nil_append, readChars, if_pos rfl]
  | cons c cs ih =>
    rw [List.flatMap_cons, List.append_assoc, readChars_writeChar, ih]
    rfl

theorem readString_writeString (s : String) (rest : List Char) :
    readString (s.toList.flatMap writeChar ++ '"' :: rest) = .ok (s, rest) := by
  rw [readString, readChars_flatMap_writeChar]
  simp [Except.map]

end Json

end QueryFilter
