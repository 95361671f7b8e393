import QueryFilter.Text.Pieces

/-!
# Byte offsets and line positions

Spans of the source count bytes of its UTF-8 form, while reports to a reader count lines and
characters. Both are computed on the list of characters: an offset is the byte length of what
stands before it, so it lies on a character boundary exactly when it is the length of a part cut
off in front.

## Main definitions

* `Text.utf8Length` — the number of bytes of a text
* `Text.splitBytes?` — the text cut at a byte offset, if that is a character boundary
* `Text.slice?` — the text between two byte offsets
* `Text.Position.ofOffset` — line and column of a byte offset
-/

namespace QueryFilter

namespace Text

/-- The number of bytes that a text takes in UTF-8. -/
def utf8Length : List Char → Nat
  | [] => 0
  | c :: cs => c.utf8Size + utf8Length cs

@[simp] theorem utf8Length_nil : utf8Length [] = 0 := rfl

@[simp] theorem utf8Length_cons (c : Char) (cs : List Char) :
    utf8Length (c :: cs) = c.utf8Size + utf8Length cs := rfl

@[simp] theorem utf8Length_append (as bs : List Char) :
    utf8Length (as ++ bs) = utf8Length as + utf8Length bs := by
  induction as with
  | nil => simp
  | cons c cs ih => simp [ih, Nat.add_assoc]

/-- The number of bytes of a string. -/
def byteLength (s : String) : Nat := utf8Length s.toList

theorem byteLength_append (s t : String) : byteLength (s ++ t) = byteLength s + byteLength t := by
  rw [byteLength, String.toList_append, utf8Length_append, byteLength, byteLength]

/-- The whole characters among the first `n` bytes. -/
def takeBytes (n : Nat) : List Char → List Char
  | [] => []
  | c :: cs => if c.utf8Size ≤ n then c :: takeBytes (n - c.utf8Size) cs else []

/-- The text before and after byte offset `n`; nothing if `n` is no character boundary or lies
beyond the end. -/
def splitBytes? : Nat → List Char → Option (List Char × List Char)
  | 0, cs => some ([], cs)
  | _ + 1, [] => none
  | n + 1, c :: cs =>
    if c.utf8Size ≤ n + 1 then
      (splitBytes? (n + 1 - c.utf8Size) cs).map fun (before, after) => (c :: before, after)
    else none

/-- The text between two byte offsets; nothing if they are reversed, beyond the end or not
character boundaries. -/
def slice? (cs : List Char) (start stop : Nat) : Option (List Char) :=
  if start ≤ stop then
    (splitBytes? start cs).bind fun (_, rest) => (splitBytes? (stop - start) rest).map (·.1)
  else none

/-! ### Lines -/

/-- The characters after the last line feed. -/
def lastLine (cs : List Char) : List Char := (cs.reverse.takeWhile (· != '\n')).reverse

/-- A line without the carriage return at its end. -/
def dropReturn (line : List Char) : List Char :=
  if line.getLast? = some '\r' then line.dropLast else line

/-- The lines of a text as they are shown: a carriage return before a line feed belongs to the
line end, and what follows the last line feed is a line only if it is not empty. -/
def shownLines (cs : List Char) : List (List Char) :=
  let pieces := pieces '\n' cs
  let closed := pieces.dropLast.map dropReturn
  match pieces.getLast? with
  | some (c :: line) => closed ++ [c :: line]
  | _ => closed

/-- A place in a text as a reader counts it: lines from 1, and characters of the line from 1. -/
structure Position where
  line : Nat
  column : Nat
deriving DecidableEq

/-- The position of a byte offset. An offset beyond the end stands for the end, and one inside a
character for the start of that character. -/
def Position.ofOffset (cs : List Char) (offset : Nat) : Position :=
  let before := takeBytes offset cs
  { line := before.count '\n' + 1, column := (lastLine before).length + 1 }

end Text

end QueryFilter
