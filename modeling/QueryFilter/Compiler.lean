import QueryFilter.Filter.Emit
import QueryFilter.Filter.Revive
import QueryFilter.Query.Parser
import QueryFilter.Settings
import QueryFilter.Token.Scan

/-!
# Compiling queries

From the text of a query to its filter: tokens, tree, document, and the document with its typed
literals revived. The first stage that fails ends it.

## Main definitions

* `CompileError` — the error of any stage
* `Compiler` — settings and a reviver
* `Compiler.parse`, `Compiler.emit`, `Compiler.compile` — the tree, the document and the filter of
  a query
-/

namespace QueryFilter

/-- The error of any stage. -/
inductive CompileError where
  | lexical (e : LexError)
  | syntactic (e : SyntaxError)
  | operand (e : OperandMismatch)
  | literal (e : LiteralError)
deriving DecidableEq

namespace CompileError

/-- The error in words. -/
def message : CompileError → String
  | lexical e => e.message
  | syntactic e => e.message
  | operand e => e.message
  | literal e => e.message

/-- The place of the error in the source, if it has one. -/
def span? : CompileError → Option Span
  | lexical e => some e.span
  | syntactic e => some e.span
  | operand e => some e.span
  | literal e => e.span

end CompileError

/-- What queries are compiled with. -/
structure Compiler where
  settings : Settings := {}
  reviver : Reviver := .standard

namespace Compiler

/-- The tokens of a query. -/
def tokens (source : String) : Except CompileError (List Token) :=
  (Token.ofText source).mapError .lexical

/-- The tree of a query. -/
def parse (c : Compiler) (source : String) : Except CompileError Query :=
  match tokens source with
  | .error e => .error e
  | .ok ts => (Query.ofTokens c.settings.maxDepth ts).mapError .syntactic

/-- The document of a query, in which typed literals are still markers. -/
def emit (c : Compiler) (source : String) : Except CompileError Document :=
  match c.parse source with
  | .error e => .error e
  | .ok q => (q.emit c.settings.mergeConjunctions).mapError .operand

/-- The filter of a query. -/
def compile (c : Compiler) (source : String) : Except CompileError Document :=
  match c.emit source with
  | .error e => .error e
  | .ok doc => (c.reviver.reviveDocument doc).mapError .literal

end Compiler

end QueryFilter
