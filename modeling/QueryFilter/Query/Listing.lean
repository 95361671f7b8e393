import QueryFilter.Query.Basic
import QueryFilter.Text.Outline

/-!
# Listings of tokens and queries

What the command shows instead of a filter on demand: the tokens of a query, one a line, and the
structure of the tree.

## Main definitions

* `Token.listing` — the line of a token
* `Query.outline` — the structure of a query
-/

namespace QueryFilter

/-- A text in quotes, as a word of an outline. -/
def Outline.quoted (s : String) : Outline := .word (Text.quoted s)

/-- The structure of a span. -/
def Span.outline (s : Span) : Outline :=
  .record "Span" [("start", .word (Text.natText s.start)), ("end", .word (Text.natText s.stop))]

/-- The structure of a number. -/
def Number.outline : Number → Outline
  | .int n => .call "Int" [.word (Text.intText n.toInt)]
  | .float x => .call "Float" [.word (x.text NumberStyle.listing)]

/-- The structure of what a token means. -/
def TokenKind.outline : TokenKind → Outline
  | and => .word "And"
  | or => .word "Or"
  | not => .word "Not"
  | member => .word "In"
  | present => .word "Exists"
  | field path => .call "Identifier" [.quoted path]
  | string text => .call "String" [.quoted text]
  | number n => .call "Number" [n.outline]
  | boolean b => .call "Boolean" [.word (Text.boolText b)]
  | null => .word "Null"
  | marker .date raw => .call "DateMarker" [.quoted raw]
  | marker .objectId raw => .call "IdMarker" [.quoted raw]
  | leftParen => .word "LParen"
  | rightParen => .word "RParen"
  | leftBracket => .word "LBracket"
  | rightBracket => .word "RBracket"
  | comma => .word "Comma"
  | equal => .word "Eq"
  | notEqual => .word "NotEq"
  | greater => .word "Gt"
  | less => .word "Lt"
  | greaterEqual => .word "Gte"
  | lessEqual => .word "Lte"
  | pattern => .word "Match"
  | endOfInput => .word "Eof"

/-- The line of a token: its offsets in columns of width four, and what it means. -/
def Token.listing (token : Token) : String :=
  let start := Text.natText token.span.start
  let stop := Text.natText token.span.stop
  let pad (s : String) := String.ofList (List.replicate (4 - s.length) ' ')
  pad start ++ start ++ ".." ++ stop ++ pad stop ++ " " ++ token.kind.outline.compact

/-- The structure of a comparison operator. -/
def CompareOp.outline : CompareOp → Outline
  | equal => .word "Eq"
  | notEqual => .word "Ne"
  | greater => .word "Gt"
  | greaterEqual => .word "Gte"
  | less => .word "Lt"
  | lessEqual => .word "Lte"
  | member => .word "In"
  | notMember => .word "NotIn"
  | pattern => .word "Regex"
  | present => .word "Exists"

namespace Literal

mutual

/-- The structure of a literal. -/
def outline : Literal → Outline
  | string text => .call "String" [.quoted text]
  | number n => .call "Number" [n.outline]
  | boolean b => .call "Bool" [.word (Text.boolText b)]
  | null => .word "Null"
  | array items => .call "Array" [.list (outlines items)]
  | marker .date raw span => .call "Date" [.quoted raw, span.outline]
  | marker .objectId raw span => .call "Id" [.quoted raw, span.outline]

/-- The structures of literals. -/
def outlines : List Literal → List Outline
  | [] => []
  | v :: vs => v.outline :: outlines vs

end

end Literal

/-- The structure of a comparison. -/
def Comparison.outline (c : Comparison) : Outline :=
  .record "Comparison"
    [("field", .call "FieldPath" [.list (c.field.segments.map .quoted)]), ("op", c.op.outline),
      ("value", c.value.outline), ("span", c.span.outline)]

namespace Query

mutual

/-- The structure of a query. -/
def outline : Query → Outline
  | comparison c => c.outline
  | and operands => .record "Logical" [("op", .word "And"), ("operands", .list (outlines operands))]
  | or operands => .record "Logical" [("op", .word "Or"), ("operands", .list (outlines operands))]
  | not operand => .call "Not" [operand.outline]
  | group content => .call "Group" [content.outline]

/-- The structures of queries. -/
def outlines : List Query → List Outline
  | [] => []
  | q :: qs => q.outline :: outlines qs

end

end Query

end QueryFilter
