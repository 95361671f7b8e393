import QueryFilter.Text.Numeral

/-!
# Code units in escapes

The escape `\uXXXX` names a UTF-16 code unit. A character beyond the first plane takes two of
them, a high and a low surrogate, written as two escapes in a row; a surrogate that is not in such
a pair names no character.

## Main definitions

* `Text.isHighSurrogate`, `Text.isLowSurrogate`, `Text.pairCode` — surrogates and their pairs
* `Text.unicodeEscape?` — the character that follows a `\u`
-/

namespace QueryFilter

namespace Text

/-- The first half of a surrogate pair. -/
def isHighSurrogate (unit : Nat) : Bool := 0xD800 ≤ unit && unit < 0xDC00

/-- The second half of a surrogate pair. -/
def isLowSurrogate (unit : Nat) : Bool := 0xDC00 ≤ unit && unit < 0xE000

/-- The code point of a surrogate pair. -/
def pairCode (high low : Nat) : Nat := 0x10000 + (high - 0xD800) * 0x400 + (low - 0xDC00)

/-- The character written by the digits after `\u`, together with the second escape of a surrogate
pair: the character, how many characters write it, and the text after them. -/
def unicodeEscape? (cs : List Char) : Option (Char × Nat × List Char) :=
  match hex4? cs with
  | none => none
  | some (unit, rest) =>
    if isHighSurrogate unit then
      match rest with
      | '\\' :: 'u' :: more =>
        match hex4? more with
        | some (low, rest) =>
          if isLowSurrogate low then some (Char.ofNat (pairCode unit low), 10, rest) else none
        | none => none
      | _ => none
    else if isLowSurrogate unit then none
    else some (Char.ofNat unit, 4, rest)

theorem suffix_of_unicodeEscape? {cs rest : List Char} {c : Char} {n : Nat}
    (h : unicodeEscape? cs = some (c, n, rest)) : rest <:+ cs := by
  unfold unicodeEscape? at h
  split at h
  · cases h
  · rename_i unit _ h₁
    have s₁ := suffix_of_hex4? h₁
    split at h
    · split at h
      · rename_i more
        split at h
        · rename_i h₂
          split at h
          · simp only [Option.some.injEq, Prod.mk.injEq] at h
            rw [← h.2.2]
            exact (suffix_of_hex4? h₂).trans (.trans ⟨['\\', 'u'], rfl⟩ s₁)
          · cases h
        · cases h
      · cases h
    · split at h
      · cases h
      · simp only [Option.some.injEq, Prod.mk.injEq] at h
        rw [← h.2.2]
        exact s₁

end Text

end QueryFilter
