import QueryFilter.Text.Printable

/-!
# Quoted text

Messages show user text in quotes with escapes, so that a reader sees where it starts and ends and
what hides in it. The quote itself and the backslash are backslashed, four controls have a letter,
and every other character that is not printable is written by its code point.

## Main definitions

* `Text.quoted` — a text in double quotes
* `Text.quotedChar` — a character in single quotes
-/

namespace QueryFilter

namespace Text

/-- A number in lower-case hexadecimal digits without padding. -/
def hexDigits (n : Nat) : List Char := Nat.toDigits 16 n

/-- One character as it stands between quotes of the given kind. -/
def escapeChar (quote c : Char) : List Char :=
  if c = quote || c = '\\' then ['\\', c]
  else if c = '\n' then ['\\', 'n']
  else if c = '\r' then ['\\', 'r']
  else if c = '\t' then ['\\', 't']
  else if c.toNat = 0 then ['\\', '0']
  else if isPrintable c then [c]
  else ['\\', 'u', '\x7b'] ++ hexDigits c.toNat ++ ['\x7d']

/-- A text in double quotes, with what cannot be shown escaped. -/
def quoted (s : String) : String :=
  String.ofList ('"' :: s.toList.flatMap (escapeChar '"') ++ ['"'])

/-- A character in single quotes, with what cannot be shown escaped. -/
def quotedChar (c : Char) : String :=
  String.ofList ('\'' :: escapeChar '\'' c ++ ['\''])

end Text

end QueryFilter
