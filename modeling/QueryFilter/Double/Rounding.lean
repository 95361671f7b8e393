import QueryFilter.Double.Basic

/-!
# Rounding to a double

The double nearest to a quotient of natural numbers, computed exactly; of two that are equally
near, the one with the even significand. Decimal texts and the two operations that reading numbers
needs are instances.

## Main definitions

* `Double.roundDiv` — a quotient to the nearest whole number, ties to even
* `Double.ofRatio` — a quotient to the nearest double
* `Double.ofDecimal` — `digits · 10 ^ exponent` to the nearest double
* `Double.mul`, `Double.div` — product and quotient of finite doubles
-/

namespace QueryFilter

namespace Double

/-- The whole number nearest to `num / den`; of two equally near, the even one. -/
def roundDiv (num den : Nat) : Nat :=
  let quotient := num / den
  let twice := 2 * (num % den)
  if den < twice || (den = twice && quotient % 2 = 1) then quotient + 1 else quotient

/-- The least power of two `q` for which `num / den` rounds to at most 53 bits times `2 ^ q`, but
no less than that of the subnormal doubles. -/
def scaleOfRatio (num den : Nat) : Int :=
  let guess : Int := num.log2 - den.log2 - 53
  let wide := num * twoPow (-guess).toNat / (den * twoPow guess.toNat)
  max (if wide < twoPow 53 then guess else guess + 1) (-1074)

/-- The double nearest to `num / den` with the given sign; what is too large is infinite. -/
def ofRatio (negative : Bool) (num den : Nat) : Double :=
  if num = 0 then zero negative
  else
    let q := scaleOfRatio num den
    let m := roundDiv (num * twoPow (-q).toNat) (den * twoPow q.toNat)
    -- A significand that is rounded up to 54 bits carries into the exponent.
    ofMagnitude negative (min ((q + 1074).toNat * twoPow 52 + m) infiniteMagnitude)

/-- How many decimal digits a number has. -/
def digitCount (n : Nat) : Nat := (Nat.toDigits 10 n).length

/-- The double nearest to `digits · 10 ^ exponent` with the given sign. Beyond the decimal
exponents of doubles the answer is known without computing the power. -/
def ofDecimal (negative : Bool) (digits : Nat) (exponent : Int) : Double :=
  let leading := exponent + digitCount digits
  if digits = 0 || leading < -330 then zero negative
  else if 310 < leading then ofMagnitude negative infiniteMagnitude
  else ofRatio negative (digits * tenPow exponent.toNat) (tenPow (-exponent).toNat)

/-- The double nearest to a whole number. -/
def ofNat (n : Nat) : Double := ofRatio false n 1

/-- The product of two finite doubles. -/
def mul (x y : Double) : Double :=
  ofRatio (x.isNegative != y.isNegative) (x.toRatio.1 * y.toRatio.1) (x.toRatio.2 * y.toRatio.2)

/-- The quotient of a finite double by one that is finite and not zero. -/
def div (x y : Double) : Double :=
  ofRatio (x.isNegative != y.isNegative) (x.toRatio.1 * y.toRatio.2) (x.toRatio.2 * y.toRatio.1)

end Double

end QueryFilter
