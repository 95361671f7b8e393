import QueryFilter.Compiler
import QueryFilter.Query.Listing

/-!
# Log records

What the command reports about its own work on demand. A record has a level, and a verbosity says
which levels are shown; warnings always are.

## Main definitions

* `LogRecord` — a level and a message
* `LogRecord.shown` — the lines of the records that a verbosity lets through
* `Compiler.parseLog`, `Compiler.compileLog` — the records of parsing and of compiling a query
-/

namespace QueryFilter

/-- How much a record matters; what matters less needs more verbosity. -/
inductive LogLevel where
  | warn
  | info
  | debug
  | trace
deriving DecidableEq

namespace LogLevel

/-- The least verbosity at which a level is shown. -/
def verbosity : LogLevel → Nat
  | warn => 0
  | info => 1
  | debug => 2
  | trace => 3

/-- The name of a level in a column of width five. -/
def label : LogLevel → String
  | warn => "WARN "
  | info => "INFO "
  | debug => "DEBUG"
  | trace => "TRACE"

end LogLevel

/-- A report of the command about its own work. -/
structure LogRecord where
  level : LogLevel
  message : String
deriving DecidableEq

namespace LogRecord

/-- The line of a record. -/
def line (r : LogRecord) : String := "[" ++ r.level.label ++ " hrq2mongoq] " ++ r.message

/-- The lines of the records that a verbosity lets through. -/
def shown (verbosity : Nat) (records : List LogRecord) : List String :=
  (records.filter fun r => r.level.verbosity ≤ verbosity).map line

end LogRecord

namespace Compiler

/-- The records of parsing a query: how many tokens it has, and its tree. -/
def parseLog (c : Compiler) (source : String) : List LogRecord :=
  match tokens source with
  | .error _ => []
  | .ok ts =>
    ⟨.debug, "lexed " ++ Text.natText ts.length ++ " tokens"⟩ ::
      match c.parse source with
      | .error _ => []
      | .ok q => [⟨.trace, "ast: " ++ q.outline.compact⟩]

/-- The records of compiling a query: those of parsing it, and how many entries its filter has. -/
def compileLog (c : Compiler) (source : String) : List LogRecord :=
  c.parseLog source ++
    match c.compile source with
    | .error _ => []
    | .ok doc =>
      [⟨.debug, "compiled " ++ Text.quoted source ++ " into " ++ Text.natText doc.length ++
        " top-level keys"⟩]

end Compiler

end QueryFilter
