import QueryFilter.Span

/-!
# Syntax errors

What can be wrong with a sequence of tokens: a token that the grammar does not allow at its place,
or nesting beyond the limit.
-/

namespace QueryFilter

/-- A sequence of tokens that is no query. -/
inductive SyntaxError where
  /-- The token at `span` is not what the grammar expects there. -/
  | unexpected (span : Span) (expected found : String)
  /-- More than `limit` negations, groups and arrays are open; `span` is that of the token after
  the one that opens the last. -/
  | tooDeep (span : Span) (limit : Nat)
deriving DecidableEq

namespace SyntaxError

/-- The place of the offending token. -/
def span : SyntaxError → Span
  | unexpected span _ _ => span
  | tooDeep span _ => span

/-- The error in words. -/
def message : SyntaxError → String
  | unexpected span expected found =>
    "syntax error at " ++ span.text ++ ": expected " ++ expected ++ ", found " ++ found
  | tooDeep span limit =>
    "expression nested deeper than " ++ Text.natText limit ++ " levels at " ++ span.text

end SyntaxError

end QueryFilter
