import QueryFilter.Token.Basic
import QueryFilter.Text.Pieces

/-!
# Queries

A query is a tree of conditions on the fields of a document. Its leaves compare a field with a
literal; chains of `AND` and of `OR` keep their operands in the order of the source, and
parentheses are kept as groups. Comparisons and typed literals know their place in the source.

## Main definitions

* `FieldPath` — a path of segments, written with dots between them
* `CompareOp` — the comparison operators, their spelling and their keyword in filters
* `Literal`, `Comparison`, `Query` — the tree
-/

namespace QueryFilter

/-- A path from a document to one of its fields, a segment a level. -/
structure FieldPath where
  segments : List String
deriving DecidableEq

namespace FieldPath

/-- The path whose segments are written with dots between them. -/
def ofDotted (text : String) : FieldPath :=
  ⟨(Text.pieces '.' text.toList).map String.ofList⟩

/-- The segments with dots between them: the key of the field in a filter. -/
def dotted (path : FieldPath) : String :=
  String.ofList (Text.joinPieces '.' (path.segments.map String.toList))

end FieldPath

/-- The comparison operators. -/
inductive CompareOp where
  | equal
  | notEqual
  | greater
  | greaterEqual
  | less
  | lessEqual
  | member
  | notMember
  | pattern
  | present
deriving DecidableEq

namespace CompareOp

/-- All comparison operators. -/
def all : List CompareOp :=
  [equal, notEqual, greater, greaterEqual, less, lessEqual, member, notMember, pattern, present]

/-- An operator as it is spelled in a query. -/
def symbol : CompareOp → String
  | equal => "="
  | notEqual => "!="
  | greater => ">"
  | greaterEqual => ">="
  | less => "<"
  | lessEqual => "<="
  | member => "IN"
  | notMember => "NOT IN"
  | pattern => "~"
  | present => "EXISTS"

/-- An operator as it is spelled in a filter. -/
def keyword : CompareOp → String
  | equal => "$eq"
  | notEqual => "$ne"
  | greater => "$gt"
  | greaterEqual => "$gte"
  | less => "$lt"
  | lessEqual => "$lte"
  | member => "$in"
  | notMember => "$nin"
  | pattern => "$regex"
  | present => "$exists"

/-- The operator of a single token between a field and a literal. -/
def ofToken? : TokenKind → Option CompareOp
  | .equal => some equal
  | .notEqual => some notEqual
  | .greater => some greater
  | .greaterEqual => some greaterEqual
  | .less => some less
  | .lessEqual => some lessEqual
  | .pattern => some pattern
  | .member => some member
  | _ => none

end CompareOp

/-- A value as it is written in a query. A typed literal keeps its raw text and its place. -/
inductive Literal where
  | string (text : String)
  | number (n : Number)
  | boolean (b : Bool)
  | null
  | array (items : List Literal)
  | marker (kind : MarkerKind) (raw : String) (span : Span)

namespace Literal

/-- The type of a literal in messages. -/
def typeName : Literal → String
  | string _ => "a string"
  | number _ => "a number"
  | boolean _ => "a boolean"
  | null => "null"
  | array _ => "an array"
  | marker .date _ _ => "a date"
  | marker .objectId _ _ => "an ObjectId"

/-- The literal of a single token. -/
def ofToken? (token : Token) : Option Literal :=
  match token.kind with
  | .string text => some (string text)
  | .number n => some (number n)
  | .boolean b => some (boolean b)
  | .null => some null
  | .marker kind raw => some (marker kind raw token.span)
  | _ => none

end Literal

/-- A condition on one field, and its place in the source. -/
structure Comparison where
  field : FieldPath
  op : CompareOp
  value : Literal
  span : Span

/-- A tree of conditions. -/
inductive Query where
  | comparison (c : Comparison)
  | and (operands : List Query)
  | or (operands : List Query)
  | not (operand : Query)
  | group (content : Query)

namespace Query

/-- A chain of `AND`; a single operand is no chain. -/
def conjunction : List Query → Query
  | [q] => q
  | qs => and qs

/-- A chain of `OR`; a single operand is no chain. -/
def disjunction : List Query → Query
  | [q] => q
  | qs => or qs

end Query

end QueryFilter
