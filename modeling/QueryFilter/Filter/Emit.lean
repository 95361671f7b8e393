import QueryFilter.Filter.Basic
import QueryFilter.Filter.Error
import QueryFilter.Query.Basic

/-!
# The filter of a query

| query                   | filter                                               |
|-------------------------|------------------------------------------------------|
| `a = 1`                 | an entry of `a` with the value                       |
| `a > 1`                 | an entry of `a` with the operator's document         |
| `p AND q`               | the entries of both, or `$and` if they share a key   |
| `p OR q`                | `$or` with an array of the filters                   |
| `NOT p`                 | `$nor` with an array of one filter                   |
| `(p)`                   | the filter of `p`                                    |

Typed literals become markers. Operands are checked and never converted: membership needs an
array, a pattern a string and presence a boolean.

## Main definitions

* `Literal.toValue` — the value of a literal
* `Comparison.emit` — the entry of a comparison
* `Query.emit` — the filter of a query
-/

namespace QueryFilter

namespace Literal

mutual

/-- The value of a literal. -/
def toValue : Literal → Value
  | string text => .string text
  | number (.int n) => .int n
  | number (.float x) => .double x
  | boolean b => .boolean b
  | null => .null
  | array items => .array (toValues items)
  | marker kind raw span => .marker ⟨kind, raw, some span⟩

/-- The values of literals. -/
def toValues : List Literal → List Value
  | [] => []
  | v :: vs => v.toValue :: toValues vs

end

end Literal

/-- The type of operand that an operator needs, if the literal is not of it. -/
def CompareOp.mismatch? : CompareOp → Literal → Option String
  | member, .array _ | notMember, .array _ => none
  | member, _ | notMember, _ => some "an array"
  | pattern, .string _ => none
  | pattern, _ => some "a string"
  | present, .boolean _ => none
  | present, _ => some "a boolean"
  | _, _ => none

namespace Comparison

/-- The value of the field's entry: that of the literal, or the operator's document. -/
def operand (c : Comparison) : Value :=
  if c.op = .equal then c.value.toValue else .document [(c.op.keyword, c.value.toValue)]

/-- The filter of a comparison. -/
def emit (c : Comparison) : Except OperandMismatch Document :=
  match c.op.mismatch? c.value with
  | some expected => .error ⟨c.span, c.op.symbol, expected, c.value.typeName⟩
  | none => .ok [(c.field.dotted, c.operand)]

end Comparison

namespace Document

/-- Whether no key occurs twice in the documents together. -/
def disjoint (docs : List Document) : Bool := decide (docs.flatMap Entries.keys).Nodup

/-- The filter that asks for all of the given ones: their entries, entered one after the other, if
that is wanted and no key occurs twice, otherwise an array of them. -/
def conjoin (merge : Bool) (docs : List Document) : Document :=
  if merge && disjoint docs then Entries.ofPairs docs.flatten
  else [("$and", .array (docs.map .document))]

/-- The filter that asks for one of the given ones. -/
def disjoin (docs : List Document) : Document := [("$or", .array (docs.map .document))]

/-- The filter that refuses the given one. -/
def refuse (doc : Document) : Document := [("$nor", .array [.document doc])]

end Document

namespace Query

mutual

/-- The filter of a query; conjunctions are merged into one document where `merge` is set and they
can be. -/
def emit (merge : Bool) : Query → Except OperandMismatch Document
  | comparison c => c.emit
  | and operands => (emitAll merge operands).map (Document.conjoin merge)
  | or operands => (emitAll merge operands).map Document.disjoin
  | not operand => (operand.emit merge).map Document.refuse
  | group content => content.emit merge

/-- The filters of queries, or the first error. -/
def emitAll (merge : Bool) : List Query → Except OperandMismatch (List Document)
  | [] => .ok []
  | q :: qs =>
    match q.emit merge with
    | .error e => .error e
    | .ok doc =>
      match emitAll merge qs with
      | .error e => .error e
      | .ok docs => .ok (doc :: docs)

end

end Query

end QueryFilter
