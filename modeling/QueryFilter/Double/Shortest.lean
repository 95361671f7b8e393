import QueryFilter.Double.Rounding

/-!
# The shortest decimal of a double

Of the decimals that read back as a double, the one with the fewest digits, and of those the
nearest. A decimal reads back exactly if it lies between the midpoints to the two neighbouring
doubles; the midpoints themselves count if the significand is even, since ties are rounded to
even. For 1, 2, … digits the two decimals around the value on the grid of that many digits are
tried, in exact arithmetic.

## Main definitions

* `Decimal` — digits and a power of ten
* `Tie` — which of two equally near decimals is taken
* `Double.shortest` — the shortest decimal of a finite double
-/

namespace QueryFilter

/-- The number `digits · 10 ^ exponent`. -/
structure Decimal where
  digits : Nat
  exponent : Int
deriving DecidableEq

/-- Which of two equally near decimals is taken. -/
inductive Tie where
  | up
  | even
deriving DecidableEq

namespace Decimal

/-- Moves the zeros at the end of the digits into the exponent, at most `fuel` of them. -/
def stripZeros : Nat → Decimal → Decimal
  | 0, d => d
  | fuel + 1, d =>
    if d.digits ≠ 0 && d.digits % 10 = 0 then
      stripZeros fuel ⟨d.digits / 10, d.exponent + 1⟩
    else d

end Decimal

namespace Double

/-- The decimal exponent of the leading digit of `num / den`, both positive. -/
def leadingExponent (num den : Nat) : Int :=
  if den ≤ num then digitCount (num / den) - 1 else -digitCount ((den - 1) / num)

/-- The ends of the interval of numbers that read back as `x`, and `x` itself, as numerators over
one denominator: the midpoints to the neighbours. Below a power of two the neighbour is only half
as far. -/
structure Interval where
  low : Nat
  value : Nat
  high : Nat
  den : Nat
  closed : Bool

/-- The interval of the numbers that read back as a finite double that is not zero. -/
def interval (x : Double) : Interval :=
  let m := x.significand
  let up := twoPow x.scale.toNat
  { low := (4 * m - if m = twoPow 52 && 1 < x.exponentField then 1 else 2) * up
    value := 4 * m * up
    high := (4 * m + 2) * up
    den := 4 * twoPow (-x.scale).toNat
    closed := m % 2 = 0 }

/-- Whether `num / den`, given over the denominator of the interval, reads back. -/
def Interval.contains (i : Interval) (num den : Nat) : Bool :=
  if i.closed then i.low * den ≤ num * i.den && num * i.den ≤ i.high * den
  else i.low * den < num * i.den && num * i.den < i.high * den

/-- The better of the two multiples of `10 ^ exponent` around the value, if one reads back. -/
def Interval.onGrid? (i : Interval) (tie : Tie) (exponent : Int) : Option Decimal :=
  let up := tenPow exponent.toNat
  let down := tenPow (-exponent).toNat
  -- The value is `i.value / i.den`, and the grid point `d` is `d * up / down`.
  let below := i.value * down / (i.den * up)
  let above := below + 1
  let twice := 2 * (i.value * down % (i.den * up))
  let takeBelow := twice < i.den * up ||
    (twice = i.den * up && (match tie with | .up => false | .even => below % 2 = 0))
  match below != 0 && i.contains (below * up) down, i.contains (above * up) down with
  | true, true => some ⟨if takeBelow then below else above, exponent⟩
  | true, false => some ⟨below, exponent⟩
  | false, true => some ⟨above, exponent⟩
  | false, false => none

/-- The shortest decimal of a finite double, up to its sign, without zeros at its end. -/
def shortest (tie : Tie) (x : Double) : Decimal :=
  if x.isZero then ⟨0, 0⟩
  else
    let i := x.interval
    let leading := leadingExponent i.value i.den
    match (List.range 17).findSome? fun (n : Nat) => i.onGrid? tie (leading - n) with
    | some d => d.stripZeros 18
    | none => ⟨i.value / i.den, 0⟩

end Double

end QueryFilter
