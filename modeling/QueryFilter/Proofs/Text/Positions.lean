import Mathlib.Data.List.Basic
import Mathlib.Data.List.TakeWhile
import QueryFilter.Proofs.Query.FieldPath
import QueryFilter.Proofs.Text.Slices

/-!
# The line of an offset

Every offset of a text lies in one line, between the line feeds next to it or the ends of the text.
A report needs the number of that line, the offset at which it starts, what it looks like and which
of its characters stand before the offset, and these are found in different ways: the number by
counting line feeds, the start by looking back for the last one, and the text by its number among
the lines that are shown. The lines that are shown are not quite those between line feeds: the
carriage return of a line end is left out, and so is an empty line at the end. Here all of them are
related to one cut of the text.

Characters are counted by where they lie. What is cut out between two boundaries is then the
characters between them, and cutting a range down to a line loses no character of that line.

## Main definitions

* `Text.IsLineAt` — the line in which an offset lies
* `Text.shownLine` — the line without the carriage return of its end
* `Text.charsBetween` — the characters of a text that lie between two offsets

## Main results

* `Text.exists_isLineAt` — every offset lies in a line
* `Text.IsLineAt.position_eq` — the number of that line, and the column
* `Text.IsLineAt.getElem?_shownLines` — the line with that number is the one that is shown
* `Text.slice?_eq_charsBetween` — what is cut out is the characters that lie there
-/

namespace QueryFilter

namespace Text

/-! ### Characters between two offsets -/

/-- The characters that lie between two offsets, of a text that starts at a given position. -/
def charsBetween (start stop : Nat) : Nat → List Char → List Char
  | _, [] => []
  | position, c :: cs =>
    let more := charsBetween start stop (position + c.utf8Size) cs
    if start ≤ position ∧ position + c.utf8Size ≤ stop then c :: more else more

theorem charsBetween_append (start stop position : Nat) (as bs : List Char) :
    charsBetween start stop position (as ++ bs) = charsBetween start stop position as ++
      charsBetween start stop (position + utf8Length as) bs := by
  induction as generalizing position with
  | nil => rfl
  | cons c as ih =>
    simp only [List.cons_append, charsBetween, ih, utf8Length_cons, Nat.add_assoc]
    split
    · rfl
    · rfl

/-- Two ranges have the same characters of a text if no character of it is in only one of them. -/
theorem charsBetween_congr {start stop start' stop' position : Nat} {cs : List Char}
    (h : ∀ p n, position ≤ p → 0 < n → p + n ≤ position + utf8Length cs →
      (start ≤ p ∧ p + n ≤ stop ↔ start' ≤ p ∧ p + n ≤ stop')) :
    charsBetween start stop position cs = charsBetween start' stop' position cs := by
  induction cs generalizing position with
  | nil => rfl
  | cons c cs ih =>
    rw [utf8Length_cons] at h
    have hfirst := h position c.utf8Size (Nat.le_refl _) c.utf8Size_pos (by omega)
    have hmore : charsBetween start stop (position + c.utf8Size) cs =
        charsBetween start' stop' (position + c.utf8Size) cs :=
      ih fun p n hp hn hle => h p n (by omega) hn (by omega)
    simp only [charsBetween, hfirst, hmore]

/-- All of a text lies in a range that reaches from its start to its end. -/
theorem charsBetween_eq_self {start stop position : Nat} {cs : List Char} (hstart : start ≤ position)
    (hstop : position + utf8Length cs ≤ stop) : charsBetween start stop position cs = cs := by
  induction cs generalizing position with
  | nil => rfl
  | cons c cs ih =>
    rw [utf8Length_cons] at hstop
    rw [charsBetween, if_pos ⟨hstart, by omega⟩, ih (by omega) (by omega)]

/-- Nothing of a text lies in a range that ends before it starts, or starts after it ends. -/
theorem charsBetween_eq_nil {start stop position : Nat} {cs : List Char}
    (h : stop ≤ max start position ∨ position + utf8Length cs ≤ start) :
    charsBetween start stop position cs = [] := by
  induction cs generalizing position with
  | nil => rfl
  | cons c cs ih =>
    have hpos := c.utf8Size_pos
    rw [utf8Length_cons] at h
    rw [charsBetween, if_neg (by omega), ih (by omega)]

/-- A character lies on one side of an offset only. -/
theorem length_charsBetween_add_le (start middle stop position : Nat) (cs : List Char) :
    (charsBetween start middle position cs).length +
      (charsBetween middle stop position cs).length ≤ cs.length := by
  induction cs generalizing position with
  | nil => exact Nat.le_refl 0
  | cons c cs ih =>
    have hpos := c.utf8Size_pos
    have hmore := ih (position + c.utf8Size)
    simp only [charsBetween]
    split
    · rw [if_neg (by omega)]
      simp only [List.length_cons]
      omega
    · split
      · simp only [List.length_cons]
        omega
      · simp only [List.length_cons]
        omega

/-! ### Boundaries -/

/-- Of two front parts of a text, the one with fewer bytes is a front part of the other. -/
theorem prefix_of_utf8Length_le {as bs cs : List Char} (has : as <+: cs) (hbs : bs <+: cs)
    (h : utf8Length as ≤ utf8Length bs) : as <+: bs := by
  rcases List.prefix_or_prefix_of_prefix has hbs with hprefix | ⟨ds, rfl⟩
  · exact hprefix
  · rw [utf8Length_append] at h
    have hnil : ds = [] := by
      by_contra hne
      have := utf8Length_pos hne
      omega
    exact ⟨[], by rw [hnil, List.append_nil, List.append_nil]⟩

theorem exists_slice? {cs : List Char} {start stop : Nat} (hstart : isBoundary cs start)
    (hstop : isBoundary cs stop) (h : start ≤ stop) : ∃ text, slice? cs start stop = some text := by
  obtain ⟨front, _, hfront, rfl⟩ := isBoundary_iff.mp hstart
  obtain ⟨before, after, hbefore, rfl⟩ := isBoundary_iff.mp hstop
  obtain ⟨text, rfl⟩ := prefix_of_utf8Length_le ⟨_, hfront.symm⟩ ⟨_, hbefore.symm⟩ h
  exact ⟨text, slice?_eq_some_iff.mpr ⟨front, after, hbefore, rfl, rfl⟩⟩

/-- **What is cut out between two boundaries** is the characters that lie there. -/
theorem slice?_eq_charsBetween {cs : List Char} {start stop : Nat} (hstart : isBoundary cs start)
    (hstop : isBoundary cs stop) (h : start ≤ stop) :
    slice? cs start stop = some (charsBetween start stop 0 cs) := by
  obtain ⟨text, htext⟩ := exists_slice? hstart hstop h
  obtain ⟨before, after, rfl, rfl, rfl⟩ := slice?_eq_some_iff.mp htext
  rw [htext, charsBetween_append, charsBetween_append, charsBetween_eq_nil (by omega),
    charsBetween_eq_self (by omega) (by rw [utf8Length_append]; omega),
    charsBetween_eq_nil (by omega), List.nil_append, List.append_nil]

/-! ### Lines -/

/-- The line in which an offset lies: what stands between the line feeds next to the offset, or
between them and the ends of the text. -/
structure IsLineAt (cs : List Char) (offset : Nat) (front line back : List Char) : Prop where
  text : cs = front ++ line ++ back
  /-- It starts the text or follows a line feed. -/
  opened : ∀ c ∈ front.getLast?, c = '\n'
  single : '\n' ∉ line
  /-- It ends the text or a line feed follows. -/
  closed : ∀ c ∈ back.head?, c = '\n'
  start_le : utf8Length front ≤ offset
  le_stop : offset ≤ utf8Length (front ++ line)

/-- A line as it is shown, given what follows it: a carriage return before the line feed belongs to
the line end. -/
def shownLine (line back : List Char) : List Char := if back = [] then line else dropReturn line

theorem shownLine_prefix (line back : List Char) : shownLine line back <+: line := by
  rw [shownLine, dropReturn]
  split
  · exact List.prefix_rfl
  · split
    · exact List.dropLast_prefix line
    · exact List.prefix_rfl

/-- Before an offset that does not lie behind the shown line, no character is left out. -/
theorem charsBetween_shownLine {start position : Nat} {line back : List Char}
    (h : start ≤ position + utf8Length (shownLine line back)) :
    charsBetween 0 start position line = charsBetween 0 start position (shownLine line back) := by
  obtain ⟨dropped, hdropped⟩ := shownLine_prefix line back
  have hbehind : charsBetween 0 start (position + utf8Length (shownLine line back)) dropped = [] :=
    charsBetween_eq_nil (by omega)
  calc charsBetween 0 start position line
      = charsBetween 0 start position (shownLine line back ++ dropped) := by rw [hdropped]
    _ = charsBetween 0 start position (shownLine line back) := by
      rw [charsBetween_append, hbehind, List.append_nil]

theorem lastLine_append {front head : List Char} (hfront : ∀ c ∈ front.getLast?, c = '\n')
    (hhead : '\n' ∉ head) : lastLine (front ++ head) = head := by
  have hline : ∀ c ∈ head.reverse, (c != '\n') = true := by
    intro c hc
    rw [bne_iff_ne]
    rintro rfl
    exact hhead (List.mem_reverse.mp hc)
  have hstop : ∀ c ∈ front.reverse.head?, (c != '\n') = false := by
    intro c hc
    rw [List.head?_reverse] at hc
    simp [hfront c hc]
  rw [lastLine, List.reverse_append, (span_append hline hstop).1, List.reverse_reverse]

/-- What stands before the last line ends with a line feed. -/
theorem exists_eq_append_lastLine (cs : List Char) : ∃ front, cs = front ++ lastLine cs ∧
    (∀ c ∈ front.getLast?, c = '\n') ∧ '\n' ∉ lastLine cs := by
  refine ⟨(cs.reverse.dropWhile (· != '\n')).reverse, ?_, ?_, ?_⟩
  · rw [lastLine, ← List.reverse_append, List.takeWhile_append_dropWhile, List.reverse_reverse]
  · intro c hc
    rw [List.getLast?_reverse] at hc
    have hstop := List.head?_dropWhile_not (· != '\n') cs.reverse
    rw [hc] at hstop
    simpa using hstop
  · intro hmem
    have := List.mem_takeWhile_imp (List.mem_reverse.mp hmem)
    simp at this

/-- Every offset lies in a line. -/
theorem exists_isLineAt {cs : List Char} {offset : Nat} (h : isBoundary cs offset) :
    ∃ front line back, IsLineAt cs offset front line back := by
  obtain ⟨before, after, rfl, rfl⟩ := isBoundary_iff.mp h
  obtain ⟨front, hbefore, hfront, hlast⟩ := exists_eq_append_lastLine before
  refine ⟨front, lastLine before ++ after.takeWhile (· != '\n'), after.dropWhile (· != '\n'), ?_⟩
  have hlength : utf8Length before = utf8Length front + utf8Length (lastLine before) := by
    rw [← utf8Length_append, ← hbefore]
  constructor
  · rw [← List.append_assoc, ← hbefore, List.append_assoc, List.takeWhile_append_dropWhile]
  · exact hfront
  · rw [List.mem_append, not_or]
    refine ⟨hlast, fun hmem => ?_⟩
    have := List.mem_takeWhile_imp hmem
    simp at this
  · intro c hc
    have hstop := List.head?_dropWhile_not (· != '\n') after
    rw [hc] at hstop
    simpa using hstop
  · omega
  · simp only [utf8Length_append]
    omega

namespace IsLineAt

variable {cs front line back : List Char} {offset : Nat}

/-- An offset that cuts no character cuts its line in two. -/
theorem exists_split (h : IsLineAt cs offset front line back) (hoffset : isBoundary cs offset) :
    ∃ head tail, line = head ++ tail ∧ offset = utf8Length (front ++ head) := by
  obtain ⟨before, after, hbefore, rfl⟩ := isBoundary_iff.mp hoffset
  have hcut : before <+: cs := ⟨after, hbefore.symm⟩
  have hline : front ++ line <+: cs := ⟨back, h.text.symm⟩
  have hfront : front <+: cs := (List.prefix_append front line).trans hline
  obtain ⟨head, rfl⟩ := prefix_of_utf8Length_le hfront hcut h.start_le
  obtain ⟨tail, htail⟩ := prefix_of_utf8Length_le hcut hline h.le_stop
  rw [List.append_assoc] at htail
  exact ⟨head, tail, (List.append_cancel_left htail).symm, rfl⟩

/-- What is found before the offset: the text in front of the line, and the characters of the line
that lie there. -/
theorem takeBytes_eq (h : IsLineAt cs offset front line back) (hoffset : isBoundary cs offset) :
    takeBytes offset cs = front ++ charsBetween 0 offset (utf8Length front) line ∧
      lastLine (takeBytes offset cs) = charsBetween 0 offset (utf8Length front) line := by
  obtain ⟨head, tail, rfl, rfl⟩ := h.exists_split hoffset
  have hchars : charsBetween 0 (utf8Length (front ++ head)) (utf8Length front) (head ++ tail) =
      head := by
    rw [charsBetween_append, charsBetween_eq_self (Nat.zero_le _) (utf8Length_append _ _).ge,
      charsBetween_eq_nil (by rw [utf8Length_append]; omega), List.append_nil]
  have htake : takeBytes (utf8Length (front ++ head)) cs = front ++ head := by
    rw [h.text, ← List.append_assoc, List.append_assoc, takeBytes_append]
  rw [hchars, htake]
  refine ⟨rfl, lastLine_append h.opened fun hmem => h.single ?_⟩
  exact List.mem_append_left _ hmem

/-- **The number of the line** is one more than the line feeds in front of it, and the column one
more than the characters of the line before the offset. -/
theorem position_eq (h : IsLineAt cs offset front line back) (hoffset : isBoundary cs offset) :
    Position.ofOffset cs offset = ⟨front.count '\n' + 1,
      (charsBetween 0 offset (utf8Length front) line).length + 1⟩ := by
  obtain ⟨htake, hlast⟩ := h.takeBytes_eq hoffset
  have hnone : (charsBetween 0 offset (utf8Length front) line).count '\n' = 0 := by
    obtain ⟨front', -, -, hmem⟩ := exists_eq_append_lastLine (takeBytes offset cs)
    rw [hlast] at hmem
    exact List.count_eq_zero.mpr hmem
  rw [Position.ofOffset, hlast, htake, List.count_append, hnone, Nat.add_zero]

end IsLineAt

/-! ### Lines by their numbers -/

theorem pieces_append_separator {α : Type} [DecidableEq α] (separator : α) (as bs : List α) :
    pieces separator (as ++ separator :: bs) = pieces separator as ++ pieces separator bs := by
  simp only [pieces_eq_splitOn, List.splitOn_append_cons_self]

/-- There is one piece more than there are separators. -/
theorem length_pieces {α : Type} [DecidableEq α] (separator : α) (cs : List α) :
    (pieces separator cs).length = cs.count separator + 1 := by
  induction cs with
  | nil => rfl
  | cons c cs ih =>
    rw [pieces, List.count_cons]
    split
    · rename_i hc
      simp [hc, ih]
    · rename_i hc
      cases hmore : pieces separator cs with
      | nil => exact absurd hmore (pieces_ne_nil _ _)
      | cons piece more =>
        rw [hmore] at ih
        simp [hc, ← ih]

namespace IsLineAt

variable {cs front line back : List Char} {offset : Nat}

/-- A line is one of the pieces between line feeds: the one with as many pieces before it as there
are line feeds, and the last one exactly if nothing follows it. -/
theorem exists_pieces (h : IsLineAt cs offset front line back) : ∃ before after,
    pieces '\n' cs = before ++ line :: after ∧ before.length = front.count '\n' ∧
      (after = [] ↔ back = []) := by
  obtain ⟨before, hbefore, hlength⟩ : ∃ before : List (List Char),
      pieces '\n' cs = before ++ pieces '\n' (line ++ back) ∧
        before.length = front.count '\n' := by
    rcases List.eq_nil_or_concat' front with rfl | ⟨lines, c, rfl⟩
    · exact ⟨[], by rw [h.text]; rfl, rfl⟩
    · have hc := h.opened c (by simp)
      subst hc
      refine ⟨pieces '\n' lines, ?_, ?_⟩
      · rw [h.text, List.append_assoc, List.append_assoc]
        exact pieces_append_separator '\n' lines (line ++ back)
      · rw [length_pieces, List.count_append]
        rfl
  have hline : pieces '\n' line = [line] := by
    rw [pieces_eq_splitOn, List.splitOn_eq_singleton h.single]
  cases back with
  | nil => exact ⟨before, [], by rw [hbefore, List.append_nil, hline], hlength, by simp⟩
  | cons c back =>
    have hc := h.closed c rfl
    subst hc
    refine ⟨before, pieces '\n' back, ?_, hlength, by simp [pieces_ne_nil]⟩
    rw [hbefore, pieces_append_separator, hline]
    rfl

/-- **The line with its number among those that are shown.** An empty line at the end is not among
them, and it is shown as an empty line all the same. -/
theorem getElem?_shownLines (h : IsLineAt cs offset front line back) :
    ((shownLines cs)[front.count '\n']?).getD [] = shownLine line back := by
  obtain ⟨before, after, hpieces, hlength, hafter⟩ := h.exists_pieces
  rw [shownLines, hpieces, shownLine, ← hlength]
  by_cases hback : back = []
  · obtain rfl := hafter.mpr hback
    rw [if_pos hback, List.dropLast_concat, List.getLast?_concat]
    cases line with
    | nil => simp
    | cons c line => simp
  · have hne : after ≠ [] := fun hnil => hback (hafter.mp hnil)
    obtain ⟨others, last, rfl⟩ := (List.eq_nil_or_concat' after).resolve_left hne
    have hlines : before ++ line :: (others ++ [last]) = (before ++ line :: others) ++ [last] := by
      simp
    rw [if_neg hback, hlines, List.dropLast_concat, List.getLast?_concat]
    cases last with
    | nil => simp
    | cons c last => simp

end IsLineAt

end Text

end QueryFilter
