import QueryFilter.Span
import QueryFilter.Text.Quoted
import QueryFilter.Double.Style

/-!
# Tokens

The units of the query language. A token carries what its text means, not how it was spelled, and
the span where it stands. Typed literals such as `date("2024-01-01")` are single tokens: a marker
with its kind and its raw text, which is decoded later.

## Main definitions

* `Number` — a numeric literal: exact if it is written as a 64-bit integer
* `MarkerKind` — the kinds of typed literals
* `TokenKind`, `Token` — what a token means, and with its place
* `TokenKind.describe` — a token in messages
-/

namespace QueryFilter

/-- A numeric literal: a 64-bit integer, or a double. -/
inductive Number where
  | int (n : Int64)
  | float (x : Double)
deriving DecidableEq

/-- Whether a whole number fits 64 bits with a sign. -/
def Number.fitsInt64 (n : Int) : Bool := -9223372036854775808 ≤ n && n ≤ 9223372036854775807

/-- A number in messages. -/
def Number.text : Number → String
  | .int n => Text.intText n.toInt
  | .float x => x.text NumberStyle.plain

/-- The kinds of typed literals. -/
inductive MarkerKind where
  | date
  | objectId
deriving DecidableEq

namespace MarkerKind

/-- The key that stands for a kind of typed literal in a document. -/
def key : MarkerKind → String
  | .date => "$date"
  | .objectId => "$oid"

/-- The kind of typed literal that a key stands for. -/
def ofKey? (key : String) : Option MarkerKind :=
  if key = "$date" then some .date else if key = "$oid" then some .objectId else none

/-- The name of a kind of typed literal in messages. -/
def name : MarkerKind → String
  | .date => "date"
  | .objectId => "oid"

end MarkerKind

/-- What a token means. -/
inductive TokenKind where
  | and
  | or
  | not
  | member
  | present
  | field (path : String)
  | string (text : String)
  | number (n : Number)
  | boolean (b : Bool)
  | null
  | marker (kind : MarkerKind) (raw : String)
  | leftParen
  | rightParen
  | leftBracket
  | rightBracket
  | comma
  | equal
  | notEqual
  | greater
  | less
  | greaterEqual
  | lessEqual
  | pattern
  | endOfInput
deriving DecidableEq

/-- A boolean in messages and in documents. -/
def Text.boolText (b : Bool) : String := if b then "true" else "false"

/-- A token as error messages name it. -/
def TokenKind.describe : TokenKind → String
  | and => "`AND`"
  | or => "`OR`"
  | not => "`NOT`"
  | member => "`IN`"
  | present => "`EXISTS`"
  | field path => "field `" ++ path ++ "`"
  | string text => "string " ++ Text.quoted text
  | number n => "number `" ++ n.text ++ "`"
  | boolean b => "`" ++ Text.boolText b ++ "`"
  | null => "`null`"
  | marker kind raw => kind.name ++ "(" ++ Text.quoted raw ++ ")"
  | leftParen => "`(`"
  | rightParen => "`)`"
  | leftBracket => "`[`"
  | rightBracket => "`]`"
  | comma => "`,`"
  | equal => "`=`"
  | notEqual => "`!=`"
  | greater => "`>`"
  | less => "`<`"
  | greaterEqual => "`>=`"
  | lessEqual => "`<=`"
  | pattern => "`~`"
  | endOfInput => "end of input"

/-- A token and where it stands in the source. -/
structure Token where
  kind : TokenKind
  span : Span
deriving DecidableEq

end QueryFilter
