import Mathlib.Data.Prod.Lex
import Mathlib.Order.Monotone.Basic
import QueryFilter.Proofs.Text.Positions

/-!
# Positions are coordinates

A span is kept as byte offsets, and a reader is told lines and columns. The second loses nothing of
the first: positions come in the order of the offsets, and an offset is found again from its
position by the lines of the text alone, without looking at how the position was counted.

The order comes from reading on. A character moves the position to the next column, or to the start
of the next line, and both of these are later in reading order; so whatever stands between two
offsets makes the second position the later one. In particular no two offsets have the same
position. The way back rests on this: the offset that is computed from a position has that position,
so it is the one from which the position came.

## Main definitions

* `Text.Position.key` — positions in reading order
* `Text.Position.advance`, `Text.Position.atEnd` — the position after a character, and after a text
* `Text.lineStart` — where a line starts
* `Text.Position.offset?` — the byte offset of a position

## Main results

* `Text.Position.atEnd_concat`, `Text.Position.key_atEnd_lt` — one character, and several
* `Text.strictMonoOn_ofOffset` — positions are in the order of the offsets
* `Text.ofOffset_of_offset?`, `Text.offset?_ofOffset` — there and back
* `Text.positions_are_coordinates` — both
-/

namespace QueryFilter

namespace Text

/-! ### Reading order -/

namespace Position

/-- Line and column in reading order: by lines, and within a line by columns. -/
def key (p : Position) : ℕ ×ₗ ℕ := toLex (p.line, p.column)

theorem key_lt_iff {p q : Position} :
    p.key < q.key ↔ p.line < q.line ∨ p.line = q.line ∧ p.column < q.column :=
  Prod.Lex.toLex_lt_toLex

/-- The position behind a character that stands at a given one. -/
def advance (p : Position) (c : Char) : Position :=
  if c = '\n' then ⟨p.line + 1, 1⟩ else ⟨p.line, p.column + 1⟩

theorem key_lt_key_advance (p : Position) (c : Char) : p.key < (p.advance c).key := by
  rw [key_lt_iff, advance]
  split
  · exact .inl (Nat.lt_succ_self p.line)
  · exact .inr ⟨rfl, Nat.lt_succ_self p.column⟩

/-- The position at the end of a text. -/
def atEnd (cs : List Char) : Position := ⟨cs.count '\n' + 1, (lastLine cs).length + 1⟩

/-- **One character** moves the position to the next column, or to the next line. -/
theorem atEnd_concat (cs : List Char) (c : Char) : atEnd (cs ++ [c]) = (atEnd cs).advance c := by
  by_cases hc : c = '\n'
  · have hlast : lastLine (cs ++ [c]) = [] := by simp [lastLine, hc]
    have hcount : (cs ++ [c]).count '\n' = cs.count '\n' + 1 := by simp [hc]
    rw [atEnd, hlast, hcount, advance, if_pos hc]
    rfl
  · have hlast : lastLine (cs ++ [c]) = lastLine cs ++ [c] := by simp [lastLine, hc]
    have hcount : (cs ++ [c]).count '\n' = cs.count '\n' := by simp [hc]
    rw [atEnd, hlast, hcount, advance, if_neg hc, List.length_append]
    rfl

/-- The position behind the first characters of a line. -/
theorem atEnd_append {front head : List Char} (hfront : ∀ c ∈ front.getLast?, c = '\n')
    (hhead : '\n' ∉ head) :
    atEnd (front ++ head) = ⟨front.count '\n' + 1, head.length + 1⟩ := by
  rw [atEnd, lastLine_append hfront hhead, List.count_append, List.count_eq_zero.mpr hhead,
    Nat.add_zero]

/-- **Several characters** move the position on. -/
theorem key_atEnd_lt {as bs : List Char} (h : bs ≠ []) :
    (atEnd as).key < (atEnd (as ++ bs)).key := by
  induction bs generalizing as with
  | nil => exact absurd rfl h
  | cons c bs ih =>
    have hfirst : (atEnd as).key < (atEnd (as ++ [c])).key := by
      rw [atEnd_concat]
      exact key_lt_key_advance (atEnd as) c
    rw [List.append_cons]
    by_cases hbs : bs = []
    · rwa [hbs, List.append_nil]
    · exact hfirst.trans (ih hbs)

end Position

theorem ofOffset_append (as bs : List Char) :
    Position.ofOffset (as ++ bs) (utf8Length as) = Position.atEnd as := by
  rw [Position.ofOffset, takeBytes_append]
  rfl

/-- **Positions are in the order of the offsets.** -/
theorem strictMonoOn_ofOffset (cs : List Char) :
    StrictMonoOn (fun offset => (Position.ofOffset cs offset).key)
      {offset | isBoundary cs offset} := by
  intro start hstart stop hstop hlt
  obtain ⟨front, _, hfront, rfl⟩ := isBoundary_iff.mp hstart
  obtain ⟨before, after, hbefore, rfl⟩ := isBoundary_iff.mp hstop
  obtain ⟨text, rfl⟩ := prefix_of_utf8Length_le ⟨_, hfront.symm⟩ ⟨_, hbefore.symm⟩ hlt.le
  have htext : text ≠ [] := by
    rintro rfl
    rw [List.append_nil] at hlt
    exact Nat.lt_irrefl _ hlt
  change (Position.ofOffset cs (utf8Length front)).key <
    (Position.ofOffset cs (utf8Length (front ++ text))).key
  rw [hbefore, ofOffset_append, List.append_assoc, ofOffset_append]
  exact Position.key_atEnd_lt htext

/-! ### Lines and columns -/

/-- Lines with a line feed after each. -/
def closeLines (lines : List (List Char)) : List Char := lines.flatMap (· ++ ['\n'])

/-- The byte offset at which a line starts, given how many there are before it. -/
def lineStart (cs : List Char) (lines : Nat) : Nat :=
  utf8Length (closeLines ((pieces '\n' cs).take lines))

/-- The byte offset of a position: the start of its line, and the bytes of the characters of the
line before its column. There is none if the text has no such line, or the line no such column. -/
def Position.offset? (cs : List Char) : Position → Option Nat
  | ⟨lines + 1, columns + 1⟩ =>
    match (pieces '\n' cs)[lines]? with
    | some line =>
      if columns ≤ line.length then some (lineStart cs lines + utf8Length (line.take columns))
      else none
    | none => none
  | _ => none

/-- A position has an offset if there are enough lines before its line and enough characters before
its column. -/
theorem offset?_eq_some_iff {cs : List Char} {p : Position} {offset : Nat} :
    p.offset? cs = some offset ↔ ∃ before head tail after,
      pieces '\n' cs = before ++ (head ++ tail) :: after ∧
        p = ⟨before.length + 1, head.length + 1⟩ ∧
        offset = utf8Length (closeLines before ++ head) := by
  constructor
  · intro h
    fun_cases Position.offset? cs p with
    | case1 lines columns line hline hle =>
      obtain ⟨hlines, hget⟩ := List.getElem?_eq_some_iff.mp hline
      have hcut : pieces '\n' cs =
          (pieces '\n' cs).take lines ++ line :: (pieces '\n' cs).drop (lines + 1) := by
        rw [← hget, List.getElem_cons_drop, List.take_append_drop]
      simp only [Position.offset?, hline, if_pos hle, Option.some.injEq] at h
      refine ⟨(pieces '\n' cs).take lines, line.take columns, line.drop columns,
        (pieces '\n' cs).drop (lines + 1), ?_, ?_, ?_⟩
      · rw [List.take_append_drop]
        exact hcut
      · rw [List.length_take_of_le hlines.le, List.length_take_of_le hle]
      · rw [utf8Length_append, ← h]
        rfl
    | case2 lines columns line hline hle => simp [Position.offset?, hline, hle] at h
    | case3 lines columns hline => simp [Position.offset?, hline] at h
    | case4 p hp => simp [Position.offset?] at h
  · rintro ⟨before, head, tail, after, hpieces, rfl, rfl⟩
    have hline : (pieces '\n' cs)[before.length]? = some (head ++ tail) := by
      rw [hpieces, List.getElem?_append_right (Nat.le_refl _), Nat.sub_self]
      rfl
    have hstart : lineStart cs before.length = utf8Length (closeLines before) := by
      rw [lineStart, hpieces, List.take_left]
    have hle : head.length ≤ (head ++ tail).length := by
      rw [List.length_append]
      exact Nat.le_add_right _ _
    simp only [Position.offset?, hline, if_pos hle, hstart, List.take_left, utf8Length_append]

/-- Joining lines ends each of them but the last with a line feed. -/
theorem joinPieces_append (lines : List (List Char)) {more : List (List Char)} (h : more ≠ []) :
    joinPieces '\n' (lines ++ more) = closeLines lines ++ joinPieces '\n' more := by
  induction lines with
  | nil => rfl
  | cons line lines ih =>
    have hne : lines ++ more ≠ [] := List.append_ne_nil_of_right_ne_nil lines h
    rw [joinPieces] at ih
    rw [joinPieces, List.cons_append, List.intercalate_cons_of_ne_nil hne, ih, closeLines,
      closeLines, List.flatMap_cons]
    simp only [List.append_assoc]

/-- What stands before a line is the lines before it, each with its line feed. -/
theorem exists_append_of_pieces {cs line : List Char} {before after : List (List Char)}
    (h : pieces '\n' cs = before ++ line :: after) :
    ∃ back, cs = closeLines before ++ line ++ back := by
  have hcs : cs = closeLines before ++ joinPieces '\n' (line :: after) := by
    rw [← joinPieces_append before (List.cons_ne_nil line after), ← h, joinPieces_pieces]
  cases after with
  | nil => exact ⟨[], by rw [hcs, joinPieces, List.intercalate_singleton, List.append_nil]⟩
  | cons next after =>
    refine ⟨['\n'] ++ joinPieces '\n' (next :: after), ?_⟩
    rw [hcs, joinPieces, List.intercalate_cons_cons, joinPieces]
    simp only [List.append_assoc]

theorem count_closeLines {lines : List (List Char)} (h : ∀ line ∈ lines, '\n' ∉ line) :
    (closeLines lines).count '\n' = lines.length := by
  induction lines with
  | nil => rfl
  | cons line lines ih =>
    rw [List.forall_mem_cons] at h
    rw [closeLines, List.flatMap_cons, List.count_append, List.count_append,
      List.count_eq_zero.mpr h.1, ← closeLines, ih h.2, List.length_cons]
    exact Nat.add_comm 1 lines.length

theorem getLast?_closeLines (lines : List (List Char)) :
    ∀ c ∈ (closeLines lines).getLast?, c = '\n' := by
  intro c hc
  rcases List.eq_nil_or_concat' lines with rfl | ⟨front, line, rfl⟩
  · exact absurd hc (Option.not_mem_none c)
  · simpa [closeLines, eq_comm] using hc

/-- **From a position to its offset**: the offset cuts no character, and has that position. -/
theorem ofOffset_of_offset? {cs : List Char} {p : Position} {offset : Nat}
    (h : p.offset? cs = some offset) :
    isBoundary cs offset ∧ Position.ofOffset cs offset = p := by
  obtain ⟨before, head, tail, after, hpieces, rfl, rfl⟩ := offset?_eq_some_iff.mp h
  obtain ⟨back, hcs⟩ := exists_append_of_pieces hpieces
  have hsingle : ∀ line ∈ before ++ (head ++ tail) :: after, '\n' ∉ line := by
    intro line hline
    rw [← hpieces] at hline
    exact not_mem_of_mem_pieces hline
  have hbefore : ∀ line ∈ before, '\n' ∉ line := fun line hline =>
    hsingle line (List.mem_append_left _ hline)
  have hhead : '\n' ∉ head := fun hmem =>
    hsingle (head ++ tail) (by simp) (List.mem_append_left _ hmem)
  have hcut : cs = (closeLines before ++ head) ++ (tail ++ back) := by
    rw [hcs]
    simp only [List.append_assoc]
  refine ⟨isBoundary_iff.mpr ⟨_, _, hcut, rfl⟩, ?_⟩
  rw [hcut, ofOffset_append, Position.atEnd_append (getLast?_closeLines before) hhead,
    count_closeLines hbefore]

/-- **From an offset to its position and back.** -/
theorem offset?_ofOffset {cs : List Char} {offset : Nat} (h : isBoundary cs offset) :
    (Position.ofOffset cs offset).offset? cs = some offset := by
  obtain ⟨front, line, back, hline⟩ := exists_isLineAt h
  obtain ⟨head, tail, rfl, hoffset⟩ := hline.exists_split h
  obtain ⟨before, after, hpieces, hlength, -⟩ := hline.exists_pieces
  have hposition : Position.ofOffset cs offset = ⟨before.length + 1, head.length + 1⟩ := by
    have hhead : '\n' ∉ head := fun hmem => hline.single (List.mem_append_left _ hmem)
    have hcut : cs = (front ++ head) ++ (tail ++ back) := by
      rw [hline.text]
      simp only [List.append_assoc]
    rw [hcut, hoffset, ofOffset_append, Position.atEnd_append hline.opened hhead, hlength]
  -- the position has an offset, and no other offset has this position
  have hfound := offset?_eq_some_iff.mpr ⟨before, head, tail, after, hpieces, hposition, rfl⟩
  obtain ⟨hboundary, hsame⟩ := ofOffset_of_offset? hfound
  have heq := (strictMonoOn_ofOffset cs).injOn hboundary h (congrArg Position.key hsame)
  rw [hfound, heq]

/-- **Positions are coordinates.** Of two offsets that cut no character, the first comes before the
second if and only if its position comes before the other's, by lines and then by columns. And an
offset that cuts no character is recovered from its position, as the start of the line with that
number and the bytes of as many characters of the line as stand before the column; every place that
a line of the text has is the position of such an offset. -/
theorem positions_are_coordinates (source : String) :
    (∀ o₁ o₂, isBoundary source.toList o₁ → isBoundary source.toList o₂ →
      (o₁ < o₂ ↔
        (Position.ofOffset source.toList o₁).key < (Position.ofOffset source.toList o₂).key)) ∧
    ∀ o p, (isBoundary source.toList o ∧ Position.ofOffset source.toList o = p) ↔
      p.offset? source.toList = some o := by
  constructor
  · intro o₁ o₂ h₁ h₂
    exact ((strictMonoOn_ofOffset source.toList).lt_iff_lt h₁ h₂).symm
  · intro o p
    constructor
    · rintro ⟨h, rfl⟩
      exact offset?_ofOffset h
    · exact ofOffset_of_offset?

/-- Behind a line feed that ends an empty line, and behind the last character, of four bytes. -/
theorem positions_are_coordinates_of_wide_text :
    let source := "é = 1\r\n\n~ 𝔘"
    isBoundary source.toList 9 ∧ isBoundary source.toList 15 ∧
      (Position.ofOffset source.toList 9).key < (Position.ofOffset source.toList 15).key ∧
      Position.ofOffset source.toList 15 = ⟨3, 4⟩ ∧
      Position.offset? source.toList ⟨3, 4⟩ = some 15 := by
  intro source
  have h₁ : isBoundary source.toList 9 := by decide +kernel
  have h₂ : isBoundary source.toList 15 := by decide +kernel
  have hposition : Position.ofOffset source.toList 15 = ⟨3, 4⟩ := by decide +kernel
  obtain ⟨hordered, hrecovered⟩ := positions_are_coordinates source
  exact ⟨h₁, h₂, (hordered 9 15 h₁ h₂).mp (by decide), hposition,
    (hrecovered 15 ⟨3, 4⟩).mp ⟨h₂, hposition⟩⟩

end Text

end QueryFilter
