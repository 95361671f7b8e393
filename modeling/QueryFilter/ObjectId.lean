import QueryFilter.Text.Numeral

/-!
# Object ids

An object id is twelve bytes, written as exactly 24 hexadecimal digits. Either case is read, and
lower case is written.
-/

namespace QueryFilter

/-- The identifier of a document, as its 24 hexadecimal digits. -/
structure ObjectId where
  digits : List (Fin 16)
  length_eq : digits.length = 24
deriving DecidableEq

namespace ObjectId

/-- The value of a hexadecimal digit of either case. -/
def digit? (c : Char) : Option (Fin 16) := (Text.hexValue? c).map (Fin.ofNat 16)

/-- The digits of a text that consists of them. -/
def digits? : List Char → Option (List (Fin 16))
  | [] => some []
  | c :: cs =>
    match digit? c, digits? cs with
    | some d, some ds => some (d :: ds)
    | _, _ => none

/-- The id that a text spells. -/
def ofHex? (raw : String) : Option ObjectId :=
  match digits? raw.toList with
  | none => none
  | some ds => if h : ds.length = 24 then some ⟨ds, h⟩ else none

/-- The 24 digits in lower case. -/
def hex (id : ObjectId) : String := String.ofList (id.digits.map fun d => Nat.digitChar d.val)

end ObjectId

end QueryFilter
