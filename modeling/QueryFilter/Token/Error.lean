import QueryFilter.Span
import QueryFilter.Text.Offset
import QueryFilter.Text.Quoted

/-!
# Lexical errors

What can be wrong with a text before its tokens are looked at together. Each error knows the byte
offset at which the offending text starts and that text itself, so its span is exactly that text.
-/

namespace QueryFilter

/-- A text that is not a sequence of tokens. -/
inductive LexError where
  /-- No token starts with this character. -/
  | unexpectedChar (position : Nat) (ch : Char)
  /-- A string has no closing quote; the position is that of its opening quote. -/
  | unterminatedString (position : Nat)
  /-- A backslash before a character that it does not escape. -/
  | invalidEscape (position : Nat) (ch : Char)
  /-- A text that starts like a number and is none, or is too large for one. -/
  | invalidNumber (position : Nat) (text : String)
  /-- The name of a typed literal without a quoted string in parentheses. -/
  | malformedMarker (position : Nat) (name : String)
deriving DecidableEq

namespace LexError

/-- The place of the offending text. -/
def span : LexError → Span
  | unexpectedChar position ch => ⟨position, position + ch.utf8Size⟩
  | unterminatedString position => ⟨position, position + 1⟩
  | invalidEscape position ch => ⟨position, position + 1 + ch.utf8Size⟩
  | invalidNumber position text => ⟨position, position + Text.byteLength text⟩
  | malformedMarker position name => ⟨position, position + Text.byteLength name⟩

/-- The error moved behind `n` more bytes. -/
def shift (n : Nat) : LexError → LexError
  | unexpectedChar position ch => unexpectedChar (position + n) ch
  | unterminatedString position => unterminatedString (position + n)
  | invalidEscape position ch => invalidEscape (position + n) ch
  | invalidNumber position text => invalidNumber (position + n) text
  | malformedMarker position name => malformedMarker (position + n) name

/-- The error in words. -/
def message : LexError → String
  | unexpectedChar position ch =>
    "unexpected character " ++ Text.quotedChar ch ++ " at offset " ++ Text.natText position
  | unterminatedString position =>
    "unterminated string starting at offset " ++ Text.natText position
  | invalidEscape position ch =>
    "invalid escape sequence `\\" ++ ch.toString ++ "` at offset " ++ Text.natText position
  | invalidNumber position text =>
    "invalid number `" ++ text ++ "` at offset " ++ Text.natText position
  | malformedMarker position name =>
    "malformed " ++ name ++ "(...) literal at offset " ++ Text.natText position ++
      ", expected a quoted string in parentheses"

end LexError

end QueryFilter
