import QueryFilter.Double.Style

/-!
# JSON values

A JSON number is an integer if it is written without fraction and exponent and fits 64 bits, signed
or unsigned; every other number is a double. The entries of an object keep their order.
-/

namespace QueryFilter

/-- A JSON value. -/
inductive Json where
  | null
  | boolean (b : Bool)
  | integer (n : Int)
  | real (x : Double)
  | string (text : String)
  | array (items : List Json)
  | object (entries : List (String × Json))

/-- Numbers in JSON text: an exponent below `10⁻⁵` and from `10¹⁶`, which always has a sign, and
always a decimal point otherwise. -/
def NumberStyle.json : NumberStyle :=
  { positional := fun p => -5 ≤ p && p < 16, pointZero := true, plusSign := true, tie := .even }

end QueryFilter
