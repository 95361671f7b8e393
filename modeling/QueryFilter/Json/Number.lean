import QueryFilter.Json.Basic
import QueryFilter.Json.Fault
import QueryFilter.Double.Rounding

/-!
# Numbers in JSON text

A number without fraction and exponent that fits 64 bits is an integer. Of every other number the
leading digits that fit 64 bits are taken as a double and scaled by the power of ten that is left.
So a number of many digits may be rounded twice, and one that is too large is an error.

## Main definitions

* `Json.scale` — a number of 64 bits times a power of ten, as a double
* `Json.readNumber` — a number without its sign
-/

namespace QueryFilter

namespace Json

open Text

/-- A double divided by a power of ten. A power that is no double is taken in steps. -/
def scaleDown (x : Double) (power : Nat) : Double :=
  if power ≤ 308 then x.div (Double.ofDecimal false 1 power)
  else if x.isZero then x
  else scaleDown (x.div (Double.ofDecimal false 1 308)) (power - 308)
termination_by power

/-- A number times a power of ten, as a double; nothing if that is infinite. -/
def scale (significand : Nat) (power : Int) : Option Double :=
  let x := Double.ofNat significand
  if power < 0 then some (scaleDown x power.natAbs)
  else if x.isZero then some x
  else if power ≤ 308 then
    let y := x.mul (Double.ofDecimal false 1 power)
    if y.isFinite then some y else none
  else none

/-- The leading digits that continue a number of 64 bits: the number, how many digits it took, and
the text after them. -/
def takeDigits (significand count : Nat) : List Char → Nat × Nat × List Char
  | [] => (significand, count, [])
  | c :: cs =>
    if isDigit c && significand * 10 + digitValue c ≤ 18446744073709551615 then
      takeDigits (significand * 10 + digitValue c) (count + 1) cs
    else (significand, count, c :: cs)

/-- The digits of an exponent after those that stand for `value`, and the text after them; nothing
once the exponent exceeds 31 bits. -/
def takeExponent (value : Nat) : List Char → Option Nat × List Char
  | [] => (some value, [])
  | c :: cs =>
    if isDigit c then
      if value * 10 + digitValue c ≤ 2147483647 then takeExponent (value * 10 + digitValue c) cs
      else (none, cs)
    else (some value, c :: cs)

/-- The sign that a number has been given. -/
def signed (negative : Bool) (x : Double) : Json := .real (if negative then x.negate else x)

/-- A scaled number, given the text after it. -/
def finishReal (negative : Bool) (significand : Nat) (power : Int) (rest : List Char) :
    Result Json :=
  match scale significand power with
  | some x => .ok (signed negative x, rest)
  | none => .error (.before .numberOutOfRange rest)

/-- The sign of an exponent, as whether it is a minus. -/
def exponentSign : List Char → Bool × List Char
  | '+' :: cs => (false, cs)
  | '-' :: cs => (true, cs)
  | cs => (false, cs)

/-- The exponent of a number, given the text after its mark. -/
def readExponent (negative : Bool) (significand : Nat) (power : Int) (cs : List Char) :
    Result Json :=
  let (minus, digits) := exponentSign cs
  match digits with
  | [] => .error (.atEnd .endInValue)
  | c :: rest =>
    if isDigit c then
      match takeExponent (digitValue c) rest with
      | (some e, rest) =>
        finishReal negative significand (if minus then power - e else power + e) rest
      | (none, rest) =>
        if significand ≠ 0 && !minus then .error (.before .numberOutOfRange rest)
        else .ok (signed negative (.zero false), rest.dropWhile isDigit)
    else .error (.within .invalidNumber digits)

/-- What may follow the digits of a double: an exponent, or nothing. -/
def readPower (negative : Bool) (significand : Nat) (power : Int) : List Char → Result Json
  | [] => finishReal negative significand power []
  | c :: cs =>
    if c = 'e' || c = 'E' then readExponent negative significand power cs
    else finishReal negative significand power (c :: cs)

/-- The fraction of a number, given the text after its point. Digits that do not fit are left
out. -/
def readFraction (negative : Bool) (significand : Nat) (power : Int) (cs : List Char) :
    Result Json :=
  match cs with
  | [] => .error (.atEnd .endInValue)
  | c :: _ =>
    if isDigit c then
      let (significand, count, rest) := takeDigits significand 0 cs
      readPower negative significand (power - count) (rest.dropWhile isDigit)
    else .error (.within .invalidNumber cs)

/-- The integer with the given digits and sign. Zero keeps its sign only as a double. -/
def integerOf (negative : Bool) (significand : Nat) : Json :=
  if !negative then .integer significand
  else if 1 ≤ significand && significand ≤ 9223372036854775808 then .integer (-significand)
  else .real (Double.ofNat significand).negate

/-- The rest of a number after the digits that fit 64 bits. -/
def readTail (negative : Bool) (significand : Nat) (cs : List Char) : Result Json :=
  let dropped := (cs.takeWhile isDigit).length
  match cs.dropWhile isDigit with
  | '.' :: rest => readFraction negative significand dropped rest
  | rest =>
    if dropped = 0 && !rest.head?.any (fun c => c = 'e' || c = 'E') then
      .ok (integerOf negative significand, rest)
    else readPower negative significand dropped rest

/-- A number, given whether a minus sign stands before it. -/
def readNumber (negative : Bool) : List Char → Result Json
  | [] => .error (.atEnd .endInValue)
  | c :: cs =>
    if c = '0' then
      if cs.head?.any isDigit then .error (.within .invalidNumber cs) else readTail negative 0 cs
    else if isDigit c then
      let (significand, _, rest) := takeDigits (digitValue c) 1 cs
      readTail negative significand rest
    else .error (.within .invalidNumber (c :: cs))

end Json

end QueryFilter
