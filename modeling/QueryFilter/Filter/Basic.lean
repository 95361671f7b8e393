import QueryFilter.Entries
import QueryFilter.ObjectId
import QueryFilter.Instant.Basic
import QueryFilter.Token.Basic

/-!
# Values and documents

A filter is a document: entries of keys and values in order. Until it is revived, a typed literal
stands in it as a marker with its raw text.

## Main definitions

* `Marker` — a typed literal that is not decoded yet
* `Value`, `Document` — what a filter is made of
* `Value.hasMarkers` — whether a marker is left anywhere
* `Value.same` — equality of values, in which the order of entries does not count
-/

namespace QueryFilter

/-- A typed literal that is not decoded yet, and where it was written if that was in a query. -/
structure Marker where
  kind : MarkerKind
  raw : String
  span : Option Span
deriving DecidableEq

/-- A value of a filter. -/
inductive Value where
  | null
  | boolean (b : Bool)
  | int (n : Int64)
  | double (x : Double)
  | string (text : String)
  | date (instant : Instant)
  | objectId (id : ObjectId)
  | array (items : List Value)
  | document (entries : List (String × Value))
  | marker (m : Marker)

/-- The entries of a filter. -/
abbrev Document := Entries Value

namespace Value

mutual

/-- Whether a marker is left in a value at any depth. -/
def hasMarkers : Value → Bool
  | marker _ => true
  | array items => anyMarkers items
  | document entries => entriesHaveMarkers entries
  | _ => false

/-- Whether a marker is left in one of the values. -/
def anyMarkers : List Value → Bool
  | [] => false
  | v :: vs => v.hasMarkers || anyMarkers vs

/-- Whether a marker is left in one of the entries. -/
def entriesHaveMarkers : List (String × Value) → Bool
  | [] => false
  | (_, v) :: rest => v.hasMarkers || entriesHaveMarkers rest

end

mutual

/-- Equality of values: entries of documents are compared by key in any order, doubles as numbers,
and all else as it is. -/
def same : Value → Value → Bool
  | null, null => true
  | boolean a, boolean b => a = b
  | int a, int b => a = b
  | double a, double b => a.sameNumber b
  | string a, string b => a = b
  | date a, date b => a = b
  | objectId a, objectId b => a = b
  | array as, array bs => sameItems as bs
  | document as, document bs => as.length = bs.length && sameEntries as bs
  | marker a, marker b => a = b
  | _, _ => false

/-- Equality of values one by one. -/
def sameItems : List Value → List Value → Bool
  | [], [] => true
  | a :: as, b :: bs => a.same b && sameItems as bs
  | _, _ => false

/-- Whether every entry of the first document has an equal one in the second. -/
def sameEntries : List (String × Value) → List (String × Value) → Bool
  | [], _ => true
  | (key, a) :: as, bs =>
    (match Entries.get? bs key with
      | some b => a.same b
      | none => false) && sameEntries as bs

end

end Value

namespace Document

/-- Whether a marker is left in a document at any depth. -/
def hasMarkers (doc : Document) : Bool := Value.entriesHaveMarkers doc

/-- Equality of documents, in which the order of entries does not count. -/
def same (a b : Document) : Bool := Value.same (.document a) (.document b)

end Document

end QueryFilter
