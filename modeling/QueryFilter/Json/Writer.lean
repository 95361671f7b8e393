import QueryFilter.Json.Basic
import QueryFilter.Text.Numeral

/-!
# JSON text

JSON values as text without any blanks, and with line breaks and two more spaces of indentation a
level. Only what has to be escaped in a string is; a number that is infinite or none has no text
and becomes `null`.

## Main definitions

* `Json.writeString`, `Json.writeReal` — strings and doubles
* `Json.write`, `Json.compact` — text without blanks
* `Json.pretty` — text with line breaks
-/

namespace QueryFilter

namespace Json

/-- A character inside the quotes of a string. -/
def writeChar (c : Char) : List Char :=
  if c = '"' || c = '\\' then ['\\', c]
  else if c = '\x08' then ['\\', 'b']
  else if c = '\x0c' then ['\\', 'f']
  else if c = '\n' then ['\\', 'n']
  else if c = '\r' then ['\\', 'r']
  else if c = '\t' then ['\\', 't']
  else if c.toNat < 0x20 then
    ['\\', 'u', '0', '0', Nat.digitChar (c.toNat / 16), Nat.digitChar (c.toNat % 16)]
  else [c]

/-- A string in quotes. -/
def writeString (s : String) : List Char := '"' :: s.toList.flatMap writeChar ++ ['"']

/-- A double, or `null` if it is no finite number. -/
def writeReal (x : Double) : List Char :=
  if x.isFinite then (x.text NumberStyle.json).toList else ['n', 'u', 'l', 'l']

/-- The text of a scalar; nothing for an array or an object. -/
def writeScalar : Json → List Char
  | null => ['n', 'u', 'l', 'l']
  | boolean true => ['t', 'r', 'u', 'e']
  | boolean false => ['f', 'a', 'l', 's', 'e']
  | integer n => (Text.intText n).toList
  | real x => writeReal x
  | string text => writeString text
  | array _ | object _ => []

/-! ### Text without blanks -/

mutual

/-- The text of a value without blanks. -/
def write : Json → List Char
  | array [] => ['[', ']']
  | array (v :: vs) => '[' :: v.write ++ writeItems vs
  | object [] => ['\x7b', '\x7d']
  | object ((key, v) :: rest) => '\x7b' :: writeString key ++ ':' :: v.write ++ writeEntries rest
  | scalar => writeScalar scalar

/-- The items of an array after the first, and its end. -/
def writeItems : List Json → List Char
  | [] => [']']
  | v :: vs => ',' :: v.write ++ writeItems vs

/-- The entries of an object after the first, and its end. -/
def writeEntries : List (String × Json) → List Char
  | [] => ['\x7d']
  | (key, v) :: rest => ',' :: writeString key ++ ':' :: v.write ++ writeEntries rest

end

/-- The text of a value without blanks. -/
def compact (j : Json) : String := String.ofList j.write

/-! ### Text with line breaks -/

/-- A line break and the indentation of a level. -/
def lineBreak (level : Nat) : List Char := '\n' :: List.replicate (2 * level) ' '

mutual

/-- The text of a value that starts at a level. -/
def writePretty (level : Nat) : Json → List Char
  | array [] => ['[', ']']
  | array (v :: vs) =>
    '[' :: lineBreak (level + 1) ++ v.writePretty (level + 1) ++ prettyItems level vs
  | object [] => ['\x7b', '\x7d']
  | object ((key, v) :: rest) =>
    '\x7b' :: lineBreak (level + 1) ++ writeString key ++ ':' :: ' ' :: v.writePretty (level + 1) ++
      prettyEntries level rest
  | scalar => writeScalar scalar

/-- The items of an array after the first, and its end. -/
def prettyItems (level : Nat) : List Json → List Char
  | [] => lineBreak level ++ [']']
  | v :: vs => ',' :: lineBreak (level + 1) ++ v.writePretty (level + 1) ++ prettyItems level vs

/-- The entries of an object after the first, and its end. -/
def prettyEntries (level : Nat) : List (String × Json) → List Char
  | [] => lineBreak level ++ ['\x7d']
  | (key, v) :: rest =>
    ',' :: lineBreak (level + 1) ++ writeString key ++ ':' :: ' ' :: v.writePretty (level + 1) ++
      prettyEntries level rest

end

/-- The text of a value with a line for every item and entry. -/
def pretty (j : Json) : String := String.ofList (j.writePretty 0)

end Json

end QueryFilter
