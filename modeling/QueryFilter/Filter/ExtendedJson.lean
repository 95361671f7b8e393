import QueryFilter.Filter.Basic
import QueryFilter.Instant.Format
import QueryFilter.Json.Writer

/-!
# Filters as JSON

JSON has no dates and no object ids. They are written as objects of one entry, whose key names the
type and whose value is the text; a marker is written like what it stands for, with its raw text.
-/

namespace QueryFilter

namespace Value

/-- An object of one entry that stands for a typed literal. -/
def envelope (kind : MarkerKind) (raw : String) : Json := .object [(kind.key, .string raw)]

mutual

/-- A value as JSON. -/
def toJson : Value → Json
  | null => .null
  | boolean b => .boolean b
  | int n => .integer n.toInt
  | double x => .real x
  | string text => .string text
  | date instant => envelope .date instant.text
  | objectId id => envelope .objectId id.hex
  | array items => .array (itemsToJson items)
  | document entries => .object (entriesToJson entries)
  | marker m => envelope m.kind m.raw

/-- Values as JSON. -/
def itemsToJson : List Value → List Json
  | [] => []
  | v :: vs => v.toJson :: itemsToJson vs

/-- Entries as JSON, in the same order. -/
def entriesToJson : List (String × Value) → List (String × Json)
  | [] => []
  | (key, v) :: rest => (key, v.toJson) :: entriesToJson rest

end

end Value

/-- A document as JSON. -/
def Document.toJson (doc : Document) : Json := .object (Value.entriesToJson doc)

end QueryFilter
