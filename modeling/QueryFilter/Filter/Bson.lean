import QueryFilter.Filter.Basic

/-!
# Filters for the database

The form in which a database driver takes a filter. Nothing of a filter is lost but the places of
markers: a marker becomes a document with its key and its raw text.
-/

namespace QueryFilter

/-- A value as a database driver takes it. -/
inductive Bson where
  | null
  | boolean (b : Bool)
  | int64 (n : Int64)
  | double (x : Double)
  | string (text : String)
  | dateTime (millis : Int)
  | objectId (id : ObjectId)
  | array (items : List Bson)
  | document (entries : List (String × Bson))

namespace Value

mutual

/-- A value as a database driver takes it. -/
def toBson : Value → Bson
  | null => .null
  | boolean b => .boolean b
  | int n => .int64 n
  | double x => .double x
  | string text => .string text
  | date instant => .dateTime instant.millis
  | objectId id => .objectId id
  | array items => .array (itemsToBson items)
  | document entries => .document (entriesToBson entries)
  | marker m => .document [(m.kind.key, .string m.raw)]

/-- Values as a database driver takes them. -/
def itemsToBson : List Value → List Bson
  | [] => []
  | v :: vs => v.toBson :: itemsToBson vs

/-- Entries as a database driver takes them, in the same order. -/
def entriesToBson : List (String × Value) → List (String × Bson)
  | [] => []
  | (key, v) :: rest => (key, v.toBson) :: entriesToBson rest

end

end Value

/-- A document as a database driver takes it. -/
def Document.toBson (doc : Document) : Entries Bson := Value.entriesToBson doc

end QueryFilter
