import QueryFilter.Compiler

/-!
# Diagnostics

An error is shown with the line of the source in which it starts and carets under the offending
text:

```
error: syntax error at 4..7: expected literal value, found `AND`
  --> 1:5
  |
1 | a = AND b = 2
  |     ^^^
```

The carets stop at the end of the line, and there is always at least one.
-/

namespace QueryFilter

namespace Diagnostic

open Text

/-- A number of spaces. -/
def spaces (n : Nat) : String := String.ofList (List.replicate n ' ')

/-- The number of carets under a span whose line ends at offset `lineEnd`. -/
def width (source : List Char) (span : Span) (lineEnd : Nat) : Nat :=
  let stop := max span.start (min span.stop (max lineEnd span.start))
  match slice? source span.start stop with
  | some cs => max cs.length 1
  | none => 1

/-- The lines that show a span in its source. -/
def excerpt (source : List Char) (span : Span) : String :=
  let position := Position.ofOffset source span.start
  let line := ((shownLines source)[position.line - 1]?).getD []
  let before := takeBytes span.start source
  let lineStart := utf8Length before - utf8Length (lastLine before)
  let number := natText position.line
  let gutter := spaces number.length
  "\n" ++ spaces (number.length + 1) ++ "--> " ++ number ++ ":" ++ natText position.column ++
    "\n" ++ gutter ++ " |" ++
    "\n" ++ number ++ " | " ++ String.ofList line ++
    "\n" ++ gutter ++ " | " ++ spaces (position.column - 1) ++
      String.ofList (List.replicate (width source span (lineStart + utf8Length line)) '^')

/-- An error in words, and where it is in the source if it has a place. -/
def render (source : String) (e : CompileError) : String :=
  "error: " ++ e.message ++
    match e.span? with
    | none => ""
    | some span => excerpt source.toList span

end Diagnostic

end QueryFilter
