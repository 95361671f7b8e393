/-!
# Blank characters

White space between tokens, around interactive lines and around date texts is the Unicode
property White_Space: more than ASCII blanks, and more than `Char.isWhitespace` knows.

## Main definitions

* `Text.inRanges` — membership of a character in a table of code point ranges
* `Text.isBlank` — the characters with the property White_Space
* `Text.skipBlanks`, `Text.trim` — leading blanks dropped, and blanks dropped at both ends
-/

namespace QueryFilter

namespace Text

/-- Whether the code point of `c` lies in one of the closed ranges of a table. -/
def inRanges (ranges : List (Nat × Nat)) (c : Char) : Bool :=
  ranges.any fun r => r.1 ≤ c.toNat && c.toNat ≤ r.2

/-- The code points with the Unicode property White_Space. -/
def blankRanges : List (Nat × Nat) :=
  [(0x09, 0x0D), (0x20, 0x20), (0x85, 0x85), (0xA0, 0xA0), (0x1680, 0x1680), (0x2000, 0x200A),
    (0x2028, 0x2029), (0x202F, 0x202F), (0x205F, 0x205F), (0x3000, 0x3000)]

/-- A character with the Unicode property White_Space. -/
def isBlank (c : Char) : Bool := inRanges blankRanges c

/-- The text from its first character that is not blank. -/
def skipBlanks (cs : List Char) : List Char := cs.dropWhile isBlank

/-- The text without the blanks at its two ends. -/
def trimChars (cs : List Char) : List Char := (skipBlanks (skipBlanks cs).reverse).reverse

/-- The text without the blanks at its two ends. -/
def trim (s : String) : String := String.ofList (trimChars s.toList)

end Text

end QueryFilter
