/-!
# Doubles

A double is its 64 bits: one sign bit, eleven bits of exponent and 52 bits of fraction. Keeping
the bits and not a number type of the compiler makes every operation below a computation on
natural numbers, and keeps the sign of zero and the payload of a value that is not a number.

A finite double stands for `significand · 2 ^ scale`, up to its sign.

## Main definitions

* `Double` — the bits
* `Double.significand`, `Double.scale` — the number that the bits stand for
* `Double.sameNumber` — equality of numbers, in which zero has no sign
-/

namespace QueryFilter

/-- A number in the IEEE 754 format binary64, given by its bits. -/
structure Double where
  bits : UInt64
deriving DecidableEq

namespace Double

/-- A power of two. -/
def twoPow (n : Nat) : Nat := Nat.pow 2 n

/-- A power of ten. -/
def tenPow (n : Nat) : Nat := Nat.pow 10 n

/-- Whether the sign bit is set. -/
def isNegative (x : Double) : Bool := twoPow 63 ≤ x.bits.toNat

/-- The eleven bits of the exponent. -/
def exponentField (x : Double) : Nat := x.bits.toNat / twoPow 52 % twoPow 11

/-- The 52 bits of the fraction. -/
def fractionField (x : Double) : Nat := x.bits.toNat % twoPow 52

/-- Neither infinite nor without a value. -/
def isFinite (x : Double) : Bool := x.exponentField < 2047

/-- Not a number: the largest exponent with a fraction. -/
def isNaN (x : Double) : Bool := x.exponentField = 2047 && x.fractionField ≠ 0

/-- Zero of either sign. -/
def isZero (x : Double) : Bool := x.exponentField = 0 && x.fractionField = 0

/-- The double with the given sign and the given other 63 bits. -/
def ofMagnitude (negative : Bool) (magnitude : Nat) : Double :=
  ⟨UInt64.ofNat ((if negative then twoPow 63 else 0) + magnitude)⟩

/-- The 63 bits besides the sign. -/
def magnitude (x : Double) : Nat := x.bits.toNat % twoPow 63

/-- Zero with the given sign. -/
def zero (negative : Bool) : Double := ofMagnitude negative 0

/-- The bits of infinity, besides the sign. -/
def infiniteMagnitude : Nat := 2047 * twoPow 52

/-- The same number with the sign changed. -/
def negate (x : Double) : Double := ofMagnitude (!x.isNegative) x.magnitude

/-- The whole number `m` of the value `m · 2 ^ scale`. -/
def significand (x : Double) : Nat :=
  if x.exponentField = 0 then x.fractionField else twoPow 52 + x.fractionField

/-- The power of two `q` of the value `significand · 2 ^ q`. -/
def scale (x : Double) : Int := max x.exponentField 1 - 1075

/-- The value of a finite double as a quotient of natural numbers, up to its sign. -/
def toRatio (x : Double) : Nat × Nat :=
  (x.significand * twoPow x.scale.toNat, twoPow (-x.scale).toNat)

/-- Equality of numbers: zeros of both signs agree, and what is not a number equals nothing. -/
def sameNumber (x y : Double) : Bool :=
  !x.isNaN && !y.isNaN && (x == y || (x.isZero && y.isZero))

end Double

end QueryFilter
