import QueryFilter.Token.Basic
import QueryFilter.Text.Numeral

/-!
# Numerals

A numeral is taken from the front of a text in parts: sign, digits, fraction, exponent, and the
characters of a name that run into it. Taking it apart never fails; whether the parts make a number
is asked afterwards, so that a wrong numeral is reported with all the text that belongs to it.

## Main definitions

* `Token.isNameStart`, `Token.isNameChar` — the characters of field names
* `Numeral`, `Numeral.take` — the parts of a numeral, and taking them from a text
* `Numeral.number?` — the number of a numeral, if its parts make one
-/

namespace QueryFilter

namespace Token

/-- The first character of a field name. A dollar sign would make it the name of an operator. -/
def isNameStart (c : Char) : Bool := c.isAlpha || c = '_'

/-- A character of a field name after the first. -/
def isNameChar (c : Char) : Bool := c.isAlphanum || c = '_' || c = '$' || c = '-'

end Token

/-- The parts of a numeral, each as it is written. -/
structure Numeral where
  /-- A minus sign, or nothing. -/
  sign : List Char
  /-- The digits before the point. -/
  whole : List Char
  /-- The point and the digits after it, or nothing. -/
  fraction : List Char
  /-- The mark of the exponent, its sign and its digits, or nothing. -/
  exponent : List Char
  /-- The characters of a name that follow without a gap. -/
  tail : List Char

namespace Numeral

open Text

/-! ### Parts -/

/-- A minus sign at the front, or nothing. -/
def takeSign : List Char → List Char × List Char
  | '-' :: cs => (['-'], cs)
  | cs => ([], cs)

/-- A point and the digits after it, or nothing. -/
def takeFraction : List Char → List Char × List Char
  | '.' :: cs => ('.' :: cs.takeWhile isDigit, cs.dropWhile isDigit)
  | cs => ([], cs)

/-- A sign of an exponent, or nothing. -/
def takeExponentSign : List Char → List Char × List Char
  | [] => ([], [])
  | c :: cs => if c = '+' || c = '-' then ([c], cs) else ([], c :: cs)

/-- The mark of an exponent, its sign and its digits, or nothing. -/
def takeExponent : List Char → List Char × List Char
  | [] => ([], [])
  | c :: cs =>
    if c = 'e' || c = 'E' then
      let (sign, digits) := takeExponentSign cs
      (c :: sign ++ digits.takeWhile isDigit, digits.dropWhile isDigit)
    else ([], c :: cs)

/-- Whether a fraction has a digit after its point, or is nothing. -/
def fractionIsWhole (fraction : List Char) : Bool := fraction ≠ ['.']

/-- Whether an exponent ends in a digit, or is nothing. -/
def exponentIsWhole (exponent : List Char) : Bool :=
  match exponent.getLast? with
  | none => true
  | some c => isDigit c

/-- Takes a numeral from the front of a text. A part that breaks off is the last one taken. -/
def take (cs : List Char) : Numeral × List Char :=
  let (sign, cs) := takeSign cs
  let whole := cs.takeWhile isDigit
  let (fraction, cs) := takeFraction (cs.dropWhile isDigit)
  if fractionIsWhole fraction then
    let (exponent, cs) := takeExponent cs
    if exponentIsWhole exponent then
      let tail := cs.takeWhile Token.isNameChar
      ({ sign, whole, fraction, exponent, tail }, cs.dropWhile Token.isNameChar)
    else ({ sign, whole, fraction, exponent, tail := [] }, cs)
  else ({ sign, whole, fraction, exponent := [], tail := [] }, cs)

/-- A numeral as it is written. -/
def text (n : Numeral) : List Char := n.sign ++ n.whole ++ n.fraction ++ n.exponent ++ n.tail

/-! ### Values -/

/-- Whether the parts of a numeral make a number. -/
def isComplete (n : Numeral) : Bool :=
  fractionIsWhole n.fraction && exponentIsWhole n.exponent && n.tail.isEmpty

/-- The digits after the point. -/
def places (n : Numeral) : List Char := n.fraction.drop 1

/-- The power of ten that the exponent says. -/
def power (n : Numeral) : Int :=
  match takeExponentSign (n.exponent.drop 1) with
  | (['-'], digits) => -natOfDigits digits
  | (_, digits) => natOfDigits digits

/-- Whether the numeral has a minus sign. -/
def isNegative (n : Numeral) : Bool := n.sign ≠ []

/-- The double nearest to a numeral. -/
def toDouble (n : Numeral) : Double :=
  Double.ofDecimal n.isNegative (natOfDigits (n.whole ++ n.places)) (n.power - n.places.length)

/-- The digits before the point as a whole number, with the sign. -/
def toInt (n : Numeral) : Int :=
  if n.isNegative then -natOfDigits n.whole else natOfDigits n.whole

/-- Whether a numeral is written as an integer. -/
def isInteger (n : Numeral) : Bool := n.fraction.isEmpty && n.exponent.isEmpty

/-- The number of a numeral: an integer if it is written as one and fits 64 bits, otherwise a
double. There is none if the numeral is incomplete or the double is infinite. -/
def number? (n : Numeral) : Option Number :=
  if !n.isComplete then none
  else if n.isInteger && Number.fitsInt64 n.toInt then some (.int (Int64.ofInt n.toInt))
  else if n.toDouble.isFinite then some (.float n.toDouble)
  else none

/-! ### Nothing is lost -/

theorem takeSign_append (cs : List Char) : (takeSign cs).1 ++ (takeSign cs).2 = cs := by
  unfold takeSign
  split <;> rfl

theorem takeFraction_append (cs : List Char) : (takeFraction cs).1 ++ (takeFraction cs).2 = cs := by
  unfold takeFraction
  split
  · simp only [List.cons_append, List.takeWhile_append_dropWhile]
  · rfl

theorem takeExponentSign_append (cs : List Char) :
    (takeExponentSign cs).1 ++ (takeExponentSign cs).2 = cs := by
  unfold takeExponentSign
  split
  · rfl
  · split <;> rfl

theorem takeExponent_append (cs : List Char) : (takeExponent cs).1 ++ (takeExponent cs).2 = cs := by
  unfold takeExponent
  split
  · rfl
  · rename_i c cs
    split
    · rw [List.append_assoc, List.takeWhile_append_dropWhile, List.cons_append,
        takeExponentSign_append]
    · rfl

/-- The text of a numeral is the text that was taken. -/
theorem text_take_append (cs : List Char) : (take cs).1.text ++ (take cs).2 = cs := by
  have hs := takeSign_append cs
  have hf := takeFraction_append ((takeSign cs).2.dropWhile isDigit)
  have he := takeExponent_append (takeFraction ((takeSign cs).2.dropWhile isDigit)).2
  have hw := List.takeWhile_append_dropWhile (p := isDigit) (l := (takeSign cs).2)
  unfold take
  simp only
  split
  · split
    · simp only [text, List.append_assoc, List.takeWhile_append_dropWhile]
      rw [he, hf, hw, hs]
    · simp only [text, List.append_assoc, List.nil_append]
      rw [he, hf, hw, hs]
  · simp only [text, List.append_assoc, List.nil_append]
    rw [hf, hw, hs]

theorem sign_take (cs : List Char) : (take cs).1.sign = (takeSign cs).1 := by
  unfold take
  simp only
  split
  · split <;> rfl
  · rfl

theorem whole_take (cs : List Char) :
    (take cs).1.whole = (takeSign cs).2.takeWhile isDigit := by
  unfold take
  simp only
  split
  · split <;> rfl
  · rfl

/-- A text that starts with a digit or a minus sign has a numeral in front. -/
theorem text_take_ne_nil {c : Char} (hc : isDigit c || c = '-') (cs : List Char) :
    (take (c :: cs)).1.text ≠ [] := by
  intro h
  simp only [text, List.append_eq_nil_iff, sign_take, whole_take] at h
  obtain ⟨⟨⟨⟨hsign, hwhole⟩, _⟩, _⟩, _⟩ := h
  by_cases hminus : c = '-'
  · subst hminus
    cases hsign
  · have hdigit : isDigit c := by simpa [hminus] using hc
    have htake : takeSign (c :: cs) = ([], c :: cs) := by
      unfold takeSign
      split
      · rename_i heq
        cases heq
        exact absurd rfl hminus
      · rfl
    rw [htake, List.takeWhile_cons_of_pos hdigit] at hwhole
    cases hwhole

/-- What is left after a numeral is a proper end of the text. -/
theorem suffix_take {c : Char} (hc : isDigit c || c = '-') (cs : List Char) :
    (take (c :: cs)).2 <:+ cs := by
  have happ := text_take_append (c :: cs)
  cases htext : (take (c :: cs)).1.text with
  | nil => exact absurd htext (text_take_ne_nil hc cs)
  | cons d text =>
    rw [htext, List.cons_append, List.cons.injEq] at happ
    exact ⟨text, happ.2⟩

end Numeral

end QueryFilter
