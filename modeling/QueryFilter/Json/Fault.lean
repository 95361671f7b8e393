import QueryFilter.Text.Numeral
import QueryFilter.Text.Offset

/-!
# Faults in JSON text

A fault is placed by the number of bytes that were not read yet when it was noticed, and reported
by line and by byte of the line. Some faults are noticed at the next byte without reading it; these
are placed behind that byte.

## Main definitions

* `Json.Problem` — what can be wrong with a JSON text
* `Json.Fault` — a problem and its place
* `Json.Fault.message` — a fault in words
-/

namespace QueryFilter

namespace Json

/-- What can be wrong with a JSON text. -/
inductive Problem where
  | endInValue
  | endInObject
  | endInList
  | endInString
  | expectedValue
  | expectedColon
  | expectedListEnd
  | expectedObjectEnd
  | expectedWord
  | keyNotString
  | trailingComma
  | trailingCharacters
  | tooDeep
  | invalidNumber
  | numberOutOfRange
  | invalidEscape
  | unfinishedPair
  | loneSurrogate
  | controlCharacter
  /-- The text is JSON, but not of the kind that is asked for. -/
  | unsuitable (text : String)
deriving DecidableEq

/-- A problem in words. -/
def Problem.text : Problem → String
  | endInValue => "EOF while parsing a value"
  | endInObject => "EOF while parsing an object"
  | endInList => "EOF while parsing a list"
  | endInString => "EOF while parsing a string"
  | expectedValue => "expected value"
  | expectedColon => "expected `:`"
  | expectedListEnd => "expected `,` or `]`"
  | expectedObjectEnd => "expected `,` or `\x7d`"
  | expectedWord => "expected ident"
  | keyNotString => "key must be a string"
  | trailingComma => "trailing comma"
  | trailingCharacters => "trailing characters"
  | tooDeep => "recursion limit exceeded"
  | invalidNumber => "invalid number"
  | numberOutOfRange => "number out of range"
  | invalidEscape => "invalid escape"
  | unfinishedPair => "unexpected end of hex escape"
  | loneSurrogate => "lone leading surrogate in hex escape"
  | controlCharacter => "control character (\\u0000-\\u001F) found while parsing a string"
  | unsuitable text => text

/-- A problem, and how many bytes were not read yet when it was noticed. -/
structure Fault where
  problem : Problem
  left : Nat
deriving DecidableEq

namespace Fault

/-- A problem noticed when the given text was left. -/
def before (problem : Problem) (cs : List Char) : Fault := ⟨problem, Text.utf8Length cs⟩

/-- A problem with the first byte of the given text. -/
def within (problem : Problem) (cs : List Char) : Fault := ⟨problem, Text.utf8Length cs - 1⟩

/-- A problem at the end of the text. -/
def atEnd (problem : Problem) : Fault := ⟨problem, 0⟩

/-- A fault in words, with its line and the number of bytes before it in that line. -/
def message (source : List Char) (fault : Fault) : String :=
  let offset := Text.utf8Length source - fault.left
  let start := Text.takeBytes offset source
  let lineStart := Text.utf8Length start - Text.utf8Length (Text.lastLine start)
  fault.problem.text ++ " at line " ++ Text.natText (start.count '\n' + 1) ++ " column " ++
    Text.natText (offset - lineStart)

end Fault

/-- What is read from the front of a text, and the text after it. -/
abbrev Result (α : Type) := Except Fault (α × List Char)

end Json

end QueryFilter
