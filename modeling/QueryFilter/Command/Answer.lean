import QueryFilter.Diagnostic
import QueryFilter.Filter.ExtendedJson
import QueryFilter.Log

/-!
# Answers to queries

The command shows the filter of a query, or on demand its tokens or its tree instead. A query that
does not compile is answered by a diagnostic on the error output.

## Main definitions

* `Command.OutputMode`, `Command.Style` — what is shown for a query, and how
* `Command.runQuery` — the answer to a query
* `Command.Transcript`, `Command.answer` — the lines of an answer, with the log records before it
-/

namespace QueryFilter

namespace Command

/-- What is shown for a query. -/
inductive OutputMode where
  | filter
  | tokens
  | tree
deriving DecidableEq

/-- How queries are answered. -/
structure Style where
  pretty : Bool := false
  verbosity : Nat := 0

/-- A text for standard output, or one for the error output. -/
abbrev Answer := Except String String

/-- The text of a filter. -/
def filterText (style : Style) (doc : Document) : String :=
  if style.pretty then doc.toJson.pretty else doc.toJson.compact

/-- What a query gives in a mode. -/
def evaluate (c : Compiler) (style : Style) (mode : OutputMode) (source : String) :
    Except CompileError String :=
  match mode with
  | .tokens => (Compiler.tokens source).map fun ts => "\n".intercalate (ts.map Token.listing)
  | .tree => (c.parse source).map fun q => q.outline.pretty
  | .filter => (c.compile source).map (filterText style)

/-- The answer to a query: what it gives, or a diagnostic. -/
def runQuery (c : Compiler) (style : Style) (mode : OutputMode) (source : String) : Answer :=
  (evaluate c style mode source).mapError (Diagnostic.render source)

/-- The records of answering a query. -/
def queryLog (c : Compiler) (mode : OutputMode) (source : String) : List LogRecord :=
  match mode with
  | .tokens => []
  | .tree => c.parseLog source
  | .filter => c.compileLog source

/-- Lines for standard output and for the error output. -/
structure Transcript where
  output : List String := []
  errors : List String := []

namespace Transcript

/-- One transcript after another. -/
def append (a b : Transcript) : Transcript := ⟨a.output ++ b.output, a.errors ++ b.errors⟩

/-- The transcript of an answer. -/
def ofAnswer : Answer → Transcript
  | .ok text => ⟨[text], []⟩
  | .error text => ⟨[], [text]⟩

end Transcript

/-- The transcript of a query: the records of answering it, and the answer. -/
def answer (c : Compiler) (style : Style) (mode : OutputMode) (source : String) : Transcript :=
  .append ⟨[], LogRecord.shown style.verbosity (queryLog c mode source)⟩
    (.ofAnswer (runQuery c style mode source))

end Command

end QueryFilter
