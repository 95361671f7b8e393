import QueryFilter.Double.Shortest

/-!
# Number text

How the digits of a double are set out. The digits are always the shortest ones; a style says for
which exponents they are written out in full, whether a whole number gets a decimal point, how an
exponent is signed and which way ties go.

## Main definitions

* `NumberStyle` — the decisions of a number format
* `NumberStyle.plain`, `NumberStyle.listing` — numbers in messages and in listings
* `Double.text` — a double in a style
-/

namespace QueryFilter

/-- The decisions of a number format. -/
structure NumberStyle where
  /-- Whether a number whose leading digit counts `10 ^ p` is written without an exponent. -/
  positional : Int → Bool
  /-- Whether a whole number ends in `.0`. -/
  pointZero : Bool
  /-- Whether a positive exponent has a sign. -/
  plusSign : Bool
  /-- Which of two equally near shortest decimals is written. -/
  tie : Tie

namespace NumberStyle

/-- Numbers in messages: never an exponent, and no decimal point in whole numbers. -/
def plain : NumberStyle :=
  { positional := fun _ => true, pointZero := false, plusSign := false, tie := .up }

/-- Numbers in listings: an exponent below `10⁻⁴` and from `10¹⁶`, and always a decimal point
otherwise. -/
def listing : NumberStyle :=
  { positional := fun p => -4 ≤ p && p < 16, pointZero := true, plusSign := false, tie := .up }

end NumberStyle

namespace Decimal

/-- The decimal exponent of the leading digit. -/
def leading (d : Decimal) : Int := d.exponent + Double.digitCount d.digits - 1

/-- All digits around the decimal point. -/
def positionalText (pointZero : Bool) (d : Decimal) : List Char :=
  let digits := Nat.toDigits 10 d.digits
  if 0 ≤ d.exponent then
    digits ++ List.replicate d.exponent.toNat '0' ++ if pointZero then ['.', '0'] else []
  else
    let places := (-d.exponent).toNat
    if places < digits.length then
      digits.take (digits.length - places) ++ '.' :: digits.drop (digits.length - places)
    else '0' :: '.' :: List.replicate (places - digits.length) '0' ++ digits

/-- One digit before the decimal point, and an exponent. -/
def exponentText (plusSign : Bool) (d : Decimal) : List Char :=
  let fraction := match Nat.toDigits 10 d.digits with
    | [] => []
    | [digit] => [digit]
    | digit :: digits => digit :: '.' :: digits
  let sign := if d.leading < 0 then ['-'] else if plusSign then ['+'] else []
  fraction ++ 'e' :: sign ++ Nat.toDigits 10 d.leading.natAbs

end Decimal

/-- A double in a style. -/
def Double.text (style : NumberStyle) (x : Double) : String :=
  let sign := if x.isNegative then ['-'] else []
  if x.isNaN then "NaN"
  else if !x.isFinite then String.ofList (sign ++ ['i', 'n', 'f'])
  else
    let d := x.shortest style.tie
    String.ofList <| sign ++
      if style.positional d.leading then d.positionalText style.pointZero
      else d.exponentText style.plusSign

end QueryFilter
