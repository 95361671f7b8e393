import QueryFilter.Proofs.Text.Blanks
import QueryFilter.Proofs.Text.Digits
import QueryFilter.Proofs.Token.Tiling
import QueryFilter.Proofs.Token.Translation

/-!
# Integer literals

A text of digits, with a minus sign in front or without one, is a whole number of any size. It is
taken for an integer exactly if it fits 64 bits, and the integer is then the number that is written:
nothing is wrapped or cut off. The range is not symmetric, and the sign is part of what is judged,
so the least integer can be written while its opposite cannot.

Outside the range the text is a double, the nearest one, or it is an error if that would be
infinite. Zeros in front count for nothing, so neither the length of the text nor its first digit
decides; only its value does.

## Main definitions

* `Numeral.ofDigits` — the numeral of a sign and digits
* `Numeral.signed` — a whole number with a sign

## Main results

* `Numeral.take_ofDigits` — a sign and digits are taken as they are
* `Token.ofText_of_take` — a text that is one numeral is one number, or an error about all of it
* `Token.ofText_of_integer_digits` — integers are exact, or no integers at all
-/

namespace QueryFilter

open Text

/-! ### Signs and digits -/

namespace Numeral

/-- The numeral of a sign and digits. -/
def ofDigits (negative : Bool) (digits : List Char) : Numeral :=
  { sign := if negative then ['-'] else [], whole := digits, fraction := [], exponent := []
    tail := [] }

/-- A whole number with a sign. -/
def signed (negative : Bool) (n : Nat) : Int := if negative then -n else n

theorem text_ofDigits (negative : Bool) (digits : List Char) :
    (ofDigits negative digits).text = (if negative then ['-'] else []) ++ digits := by
  simp [text, ofDigits]

/-- A sign and digits are taken as they are, and nothing is left. -/
theorem take_ofDigits (negative : Bool) {digits : List Char} (h : ∀ c ∈ digits, isDigit c) :
    take (ofDigits negative digits).text = (ofDigits negative digits, []) := by
  have hsign : takeSign (ofDigits negative digits).text =
      ((ofDigits negative digits).sign, digits) := by
    rw [text_ofDigits]
    cases negative with
    | true => rfl
    | false =>
      refine takeSign_of_head?_ne fun hhead => ?_
      exact absurd (h '-' (List.mem_of_head? hhead)) (by decide)
  have hall : digits.takeWhile isDigit = digits := List.takeWhile_eq_self_iff.mpr h
  have hnone : digits.dropWhile isDigit = [] := List.dropWhile_eq_nil_iff.mpr h
  simp only [take, hsign, hall, hnone]
  rfl

theorem isNegative_ofDigits (negative : Bool) (digits : List Char) :
    (ofDigits negative digits).isNegative = negative := by
  cases negative with
  | true => rfl
  | false => rfl

theorem toInt_ofDigits (negative : Bool) (digits : List Char) :
    (ofDigits negative digits).toInt = signed negative (natOfDigits digits) := by
  rw [toInt, isNegative_ofDigits]
  rfl

theorem toDouble_ofDigits (negative : Bool) (digits : List Char) :
    (ofDigits negative digits).toDouble = Double.ofDecimal negative (natOfDigits digits) 0 := by
  have hdigits : (ofDigits negative digits).whole ++ (ofDigits negative digits).places = digits :=
    List.append_nil digits
  rw [toDouble, isNegative_ofDigits, hdigits]
  rfl

/-- The number of a sign and digits: the integer that they write, if it fits, and otherwise the
nearest double, if that is finite. -/
theorem number?_ofDigits (negative : Bool) (digits : List Char) :
    (ofDigits negative digits).number? =
      if Number.fitsInt64 (signed negative (natOfDigits digits)) then
        some (.int (Int64.ofInt (signed negative (natOfDigits digits))))
      else if (Double.ofDecimal negative (natOfDigits digits) 0).isFinite then
        some (.float (Double.ofDecimal negative (natOfDigits digits) 0))
      else none := by
  have hcomplete : (ofDigits negative digits).isComplete = true := rfl
  have hinteger : (ofDigits negative digits).isInteger = true := rfl
  rw [number?, hcomplete, hinteger, toInt_ofDigits, toDouble_ofDigits, Bool.true_and]
  rfl

end Numeral

theorem Number.fitsInt64_iff {n : Int} :
    fitsInt64 n ↔ -9223372036854775808 ≤ n ∧ n ≤ 9223372036854775807 := by
  simp only [fitsInt64, Bool.and_eq_true, decide_eq_true_eq]

namespace Token

/-! ### Texts that are a numeral -/

section Whole

variable {c : Char} {cs : List Char} {numeral : Numeral}

theorem isBlank_of_startsNumber (hc : isDigit c || (c = '-' && cs.head?.any isDigit)) :
    isBlank c = false := by
  rcases Bool.or_eq_true_iff.mp hc with hdigit | hminus
  · exact isBlank_of_isDigit hdigit
  · rw [of_decide_eq_true (Bool.and_eq_true_iff.mp hminus).1]
    decide

theorem text_of_take (h : Numeral.take (c :: cs) = (numeral, [])) : numeral.text = c :: cs := by
  have happend := Numeral.text_take_append (c :: cs)
  rwa [h, List.append_nil] at happend

/-- **A text that is one numeral** is its number, from the start to the end. -/
theorem standsAlone_of_take (hc : isDigit c || (c = '-' && cs.head?.any isDigit))
    (h : Numeral.take (c :: cs) = (numeral, [])) {n : Number} (hn : numeral.number? = some n) :
    StandsAlone (.number n) (c :: cs) := by
  have hread : read 0 c cs = .ok (.number n, ⟨0 + utf8Length numeral.text, []⟩) := by
    simp only [read_of_isDigit hc, readNumber, h, hn]
  obtain ⟨body, hbody, -, halone⟩ := standsAlone_of_read (isBlank_of_startsNumber hc) hread
  rw [List.append_nil] at hbody
  rwa [hbody]

/-- If it has no number, the error names all of the text. -/
theorem ofText_of_take (hc : isDigit c || (c = '-' && cs.head?.any isDigit))
    (h : Numeral.take (c :: cs) = (numeral, [])) (hn : numeral.number? = none) :
    ofText (String.ofList (c :: cs)) = .error (.invalidNumber 0 (String.ofList (c :: cs))) := by
  have hread : read 0 c cs = .error (.invalidNumber 0 (String.ofList (c :: cs))) := by
    simp only [read_of_isDigit hc, readNumber, h, hn, text_of_take h]
  have hstart : Cursor.skipBlanks ⟨0, c :: cs⟩ = ⟨0, c :: cs⟩ :=
    Cursor.skipBlanks_append (List.forall_mem_nil _) (isBlank_of_startsNumber hc) 0 cs
  simp only [ofText, scan, String.toList_ofList, scanFrom_of_error hstart hread]

end Whole

/-! ### Integers -/

/-- A sign and digits start like a number. -/
theorem exists_cons_text_ofDigits (negative : Bool) {digits : List Char} (hne : digits ≠ [])
    (h : ∀ c ∈ digits, isDigit c) : ∃ c cs, (Numeral.ofDigits negative digits).text = c :: cs ∧
      (isDigit c || (c = '-' && cs.head?.any isDigit)) := by
  obtain ⟨d, ds, rfl⟩ := List.exists_cons_of_ne_nil hne
  have hd : isDigit d := h d List.mem_cons_self
  cases negative with
  | true => exact ⟨'-', d :: ds, Numeral.text_ofDigits true (d :: ds), by simp [hd]⟩
  | false => exact ⟨d, ds, Numeral.text_ofDigits false (d :: ds), by simp [hd]⟩

/-- What the text of a sign and digits is. The value decides whether it is an integer, and the
nearest double decides the rest. -/
theorem ofText_of_digits (negative : Bool) {digits text : List Char} (hne : digits ≠ [])
    (h : ∀ c ∈ digits, isDigit c) (htext : text = (Numeral.ofDigits negative digits).text) :
    let value := Numeral.signed negative (natOfDigits digits)
    let double := Double.ofDecimal negative (natOfDigits digits) 0
    (Number.fitsInt64 value → StandsAlone (.number (.int (Int64.ofInt value))) text) ∧
      (Number.fitsInt64 value = false → double.isFinite →
        StandsAlone (.number (.float double)) text) ∧
      (Number.fitsInt64 value = false → double.isFinite = false →
        ofText (String.ofList text) = .error (.invalidNumber 0 (String.ofList text))) := by
  intro value double
  obtain ⟨c, cs, hcons, hc⟩ := exists_cons_text_ofDigits negative hne h
  have htake := Numeral.take_ofDigits negative h
  have hnumber := Numeral.number?_ofDigits negative digits
  rw [hcons] at htext htake
  subst htext
  refine ⟨fun hfits => standsAlone_of_take hc htake ?_,
    fun hfits hfinite => standsAlone_of_take hc htake ?_,
    fun hfits hfinite => ofText_of_take hc htake ?_⟩
  · rw [hnumber, if_pos hfits]
  · rw [hnumber, if_neg (Bool.eq_false_iff.mp hfits), if_pos hfinite]
  · rw [hnumber, if_neg (Bool.eq_false_iff.mp hfits), if_neg (Bool.eq_false_iff.mp hfinite)]

/-- A 64-bit integer in decimal is a sign and digits that write it. -/
theorem standsAlone_intText (n : Int64) :
    StandsAlone (.number (.int n)) (intText n.toInt).toList := by
  have htext : (intText n.toInt).toList =
      (Numeral.ofDigits (n.toInt < 0) (Nat.toDigits 10 n.toInt.natAbs)).text := by
    rw [Numeral.text_ofDigits, intText]
    split
    · rename_i hneg
      simp [hneg]
    · rename_i hneg
      simp [natText, hneg]
  have hvalue : Numeral.signed (n.toInt < 0) (natOfDigits (Nat.toDigits 10 n.toInt.natAbs)) =
      n.toInt := by
    rw [natOfDigits_toDigits, Numeral.signed]
    split
    · rename_i hneg
      have := of_decide_eq_true hneg
      omega
    · rename_i hneg
      rw [decide_eq_true_eq] at hneg
      omega
  have hfits : Number.fitsInt64 n.toInt := by
    have hlower := n.le_toInt
    have hupper := n.toInt_lt
    exact Number.fitsInt64_iff.mpr ⟨hlower, by omega⟩
  have hinteger := (ofText_of_digits (n.toInt < 0) Nat.toDigits_ne_nil
    (fun c hc => isDigit_of_mem_toDigits hc) htext).1
  rw [hvalue, Int64.ofInt_toInt] at hinteger
  exact hinteger hfits

/-- **Integers are exact, or no integers at all.** A text of digits, with a minus sign or without
one, is the integer that it writes exactly if that fits 64 bits. Otherwise it is the nearest double,
if that is finite, and else an error about the whole text. So every 64-bit integer is read back
from its decimal text. -/
theorem ofText_of_integer_digits :
    (∀ (negative : Bool) (digits : List Char), digits ≠ [] → (∀ c ∈ digits, isDigit c) →
      let source := String.ofList ((if negative then ['-'] else []) ++ digits)
      let value := Numeral.signed negative (Nat.ofDigitChars 10 digits 0)
      let double := Double.ofDecimal negative (Nat.ofDigitChars 10 digits 0) 0
      ((∃ n : Int64, n.toInt = value ∧
          ofText source = .ok [⟨.number (.int n), ⟨0, byteLength source⟩⟩,
            ⟨.endOfInput, .point (byteLength source)⟩]) ↔
        -9223372036854775808 ≤ value ∧ value ≤ 9223372036854775807) ∧
      (¬(-9223372036854775808 ≤ value ∧ value ≤ 9223372036854775807) →
        (double.isFinite ∧
          ofText source = .ok [⟨.number (.float double), ⟨0, byteLength source⟩⟩,
            ⟨.endOfInput, .point (byteLength source)⟩]) ∨
        (double.isFinite = false ∧ ofText source = .error (.invalidNumber 0 source)))) ∧
    ∀ n : Int64, ofText (intText n.toInt) =
      .ok [⟨.number (.int n), ⟨0, byteLength (intText n.toInt)⟩⟩,
        ⟨.endOfInput, .point (byteLength (intText n.toInt))⟩] := by
  refine ⟨?_, fun n => ?_⟩
  · intro negative digits hne hdigits source value double
    have hbytes : byteLength source = utf8Length ((if negative then ['-'] else []) ++ digits) := by
      rw [byteLength, String.toList_ofList]
    obtain ⟨hint, hfloat, herror⟩ := ofText_of_digits negative hne hdigits
      (Numeral.text_ofDigits negative digits).symm
    rw [hbytes]
    constructor
    · constructor
      · rintro ⟨n, hn, -⟩
        have hlower := n.le_toInt
        have hupper := n.toInt_lt
        omega
      · intro hrange
        have hfits := Number.fitsInt64_iff.mpr hrange
        exact ⟨Int64.ofInt value, Int64.toInt_ofInt_of_le (by omega) (by omega), hint hfits⟩
    · intro hrange
      have hfits : Number.fitsInt64 value = false :=
        Bool.eq_false_iff.mpr fun hfits => hrange (Number.fitsInt64_iff.mp hfits)
      cases hfinite : double.isFinite with
      | true => exact .inl ⟨rfl, hfloat hfits hfinite⟩
      | false => exact .inr ⟨rfl, herror hfits hfinite⟩
  · have halone := standsAlone_intText n
    rwa [StandsAlone, String.ofList_toList] at halone

/-- The least integer, with zeros in front, is one; its opposite is a double. -/
theorem ofText_of_least_integer :
    ofText "-009223372036854775808" =
        .ok [⟨.number (.int Int64.minValue), ⟨0, 22⟩⟩, ⟨.endOfInput, .point 22⟩] ∧
      ofText "9223372036854775808" =
        .ok [⟨.number (.float ⟨0x43E0000000000000⟩), ⟨0, 19⟩⟩, ⟨.endOfInput, .point 19⟩] := by
  have hdigits : ∀ c ∈ "9223372036854775808".toList, isDigit c :=
    List.all_eq_true.mp (by decide +kernel)
  have hzeros : ∀ c ∈ "009223372036854775808".toList, isDigit c :=
    List.all_eq_true.mp (by decide +kernel)
  constructor
  · obtain ⟨n, hn, htokens⟩ := (ofText_of_integer_digits.1 true _ (by decide +kernel) hzeros).1.mpr
      (by decide +kernel)
    have hleast : n = Int64.minValue := Int64.toInt_inj.mp (hn.trans (by decide +kernel))
    rw [hleast] at htokens
    exact htokens
  · rcases (ofText_of_integer_digits.1 false _ (by decide +kernel) hdigits).2
      (by decide +kernel) with ⟨-, hfloat⟩ | ⟨hinfinite, -⟩
    · have hdouble : Double.ofDecimal false
          (Nat.ofDigitChars 10 "9223372036854775808".toList 0) 0 = ⟨0x43E0000000000000⟩ := by
        decide +kernel
      rw [hdouble] at hfloat
      exact hfloat
    · exact absurd hinfinite (by decide +kernel)

end Token

end QueryFilter
