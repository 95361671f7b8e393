import Mathlib.Data.List.Basic
import Mathlib.Data.List.TakeWhile
import QueryFilter.Proofs.Text.Digits
import QueryFilter.Text.Blank

/-!
# Blanks at the ends of a text

Trimming takes blanks off both ends of a text. So blanks that are put around it make no difference,
and a text that neither starts nor ends with a blank stays as it is.

## Main definitions

* `Text.EndsBare` — a text that does not end with a blank

## Main results

* `Text.trimChars_blanks_append`, `Text.trimChars_append_blanks` — blanks in front of a text and
  behind it
* `Text.trimChars_of_not_isBlank` — a text without blanks at its ends
-/

namespace QueryFilter

namespace Text

theorem skipBlanks_of_not_isBlank {cs : List Char} (h : ∀ c ∈ cs.head?, isBlank c = false) :
    skipBlanks cs = cs := by
  cases cs with
  | nil => rfl
  | cons c cs => rw [skipBlanks, List.dropWhile_cons_of_neg (by simp [h c rfl])]

theorem skipBlanks_append {blanks : List Char} (h : ∀ c ∈ blanks, isBlank c) (cs : List Char) :
    skipBlanks (blanks ++ cs) = skipBlanks cs :=
  List.dropWhile_append_of_pos h

theorem trimChars_blanks_append {blanks : List Char} (h : ∀ c ∈ blanks, isBlank c)
    (cs : List Char) : trimChars (blanks ++ cs) = trimChars cs := by
  rw [trimChars, skipBlanks_append h, trimChars]

theorem trimChars_append_blanks {blanks : List Char} (h : ∀ c ∈ blanks, isBlank c)
    (cs : List Char) : trimChars (cs ++ blanks) = trimChars cs := by
  have hskip : skipBlanks (cs ++ blanks) =
      if (skipBlanks cs).isEmpty then skipBlanks blanks else skipBlanks cs ++ blanks :=
    List.dropWhile_append
  have hblanks : skipBlanks blanks = [] := List.dropWhile_eq_nil_iff.mpr h
  rw [trimChars, trimChars, hskip, hblanks]
  split
  · rename_i hempty
    rw [List.isEmpty_iff.mp hempty]
  · rw [List.reverse_append, skipBlanks_append (by simpa using h)]

theorem isBlank_of_isDigit {c : Char} (h : isDigit c) : isBlank c = false := by
  have hrange := toNat_bounds_of_isDigit h
  rw [isBlank, inRanges, List.any_eq_false]
  intro r hr
  have htable : ∀ r ∈ blankRanges, r.2 < 48 ∨ 57 < r.1 := by decide
  rw [Bool.and_eq_true, decide_eq_true_iff, decide_eq_true_iff]
  rcases htable r hr with hbelow | habove
  · omega
  · omega

/-! ### Texts without blanks at their ends -/

/-- A text that does not end with a blank. -/
def EndsBare (cs : List Char) : Prop := ∀ c ∈ cs.getLast?, isBlank c = false

theorem endsBare_nil : EndsBare [] := fun c hc => absurd hc (Option.not_mem_none c)

theorem endsBare_singleton {c : Char} (h : isBlank c = false) : EndsBare [c] := by
  rintro d ⟨⟩
  exact h

theorem EndsBare.append {cs ds : List Char} (hcs : EndsBare cs) (hds : EndsBare ds) :
    EndsBare (cs ++ ds) := by
  intro c hc
  rw [List.getLast?_append, Option.mem_def, Option.or_eq_some_iff] at hc
  rcases hc with h | ⟨-, h⟩
  · exact hds c h
  · exact hcs c h

/-- The end of a text is that of its last part. -/
theorem endsBare_append {ds : List Char} (hne : ds ≠ []) (hds : EndsBare ds) (cs : List Char) :
    EndsBare (cs ++ ds) := by
  rwa [EndsBare, List.getLast?_append_of_ne_nil cs hne]

theorem endsBare_digits {digits : List Char} (h : ∀ c ∈ digits, isDigit c) : EndsBare digits :=
  fun c hc => isBlank_of_isDigit (h c (List.mem_of_getLast? hc))

/-- Nothing is taken off a text that neither starts nor ends with a blank. -/
theorem trimChars_of_not_isBlank {cs : List Char} (hfirst : ∀ c ∈ cs.head?, isBlank c = false)
    (hlast : EndsBare cs) : trimChars cs = cs := by
  rw [trimChars, skipBlanks_of_not_isBlank hfirst,
    skipBlanks_of_not_isBlank (by rwa [List.head?_reverse]), List.reverse_reverse]

end Text

end QueryFilter
