import QueryFilter.Diagnostic
import QueryFilter.Proofs.Filter.ErrorPlaces
import QueryFilter.Proofs.Text.Positions

/-!
# Diagnostics underline what they are about

A diagnostic ends with the line of the source in which the error starts, and with carets below it.
What it promises is about characters: as many spaces as there are characters before the error, and
as many carets as there are characters of the error on that line. What it computes with is bytes,
and it clips the error to the line before it counts. The clipped end has to be a boundary again, or
nothing would be counted, and clipping must not lose a character of the line, in whatever way the
error lies: over the end of its line, on the line end itself, or behind the last line feed.

The spaces count all characters of the source line before the error. Only an error that starts
between a carriage return and the line feed after it has one before it that is not shown.

## Main results

* `Diagnostic.width_eq` — the carets are the characters of the shown line that lie in the span
* `Diagnostic.render_underlines_span` — what a diagnostic shows
-/

namespace QueryFilter

namespace Diagnostic

open Text

variable {cs front line back : List Char} {span : Span}

/-- A number of carets. -/
def carets (n : Nat) : String := String.ofList (List.replicate n '^')

/-- The text up to the end of a shown line. -/
theorem exists_append_shownLine (h : IsLineAt cs span.start front line back) :
    ∃ rest, cs = front ++ shownLine line back ++ rest := by
  obtain ⟨dropped, hdropped⟩ := shownLine_prefix line back
  refine ⟨dropped ++ back, ?_⟩
  rw [← List.append_assoc, List.append_assoc front, hdropped, h.text]

/-- **The carets.** Clipping a span to its line keeps the characters of the shown line that lie in
it, and one caret is left if there are none. -/
theorem width_eq (h : IsLineAt cs span.start front line back) (hspan : span.LiesIn cs) :
    width cs span (utf8Length front + utf8Length (shownLine line back)) =
      max (charsBetween span.start span.stop (utf8Length front) (shownLine line back)).length 1 := by
  obtain ⟨rest, hrest⟩ := exists_append_shownLine h
  have hordered := hspan.ordered
  have hstart := h.start_le
  obtain ⟨stop, hstop⟩ : ∃ stop, stop = max span.start (min span.stop
    (max (utf8Length front + utf8Length (shownLine line back)) span.start)) := ⟨_, rfl⟩
  -- the clipped span ends where the span starts or ends, or where the line does
  have hboundary : isBoundary cs stop := by
    have hline : isBoundary cs (utf8Length (front ++ shownLine line back)) :=
      isBoundary_iff.mpr ⟨_, rest, hrest, rfl⟩
    rw [utf8Length_append] at hline
    rcases (by omega : stop = span.start ∨ stop = span.stop ∨
      stop = utf8Length front + utf8Length (shownLine line back)) with heq | heq | heq
    · rw [heq]
      exact hspan.start
    · rw [heq]
      exact hspan.stop
    · rw [heq]
      exact hline
  have hchars : charsBetween span.start stop 0 cs =
      charsBetween span.start span.stop (utf8Length front) (shownLine line back) := by
    have hfront : charsBetween span.start stop 0 front = [] := charsBetween_eq_nil (by omega)
    have hinside : charsBetween span.start stop (utf8Length front) (shownLine line back) =
        charsBetween span.start span.stop (utf8Length front) (shownLine line back) :=
      charsBetween_congr fun p n hp hn hle => by omega
    have hbehind : charsBetween span.start stop
        (utf8Length front + utf8Length (shownLine line back)) rest = [] :=
      charsBetween_eq_nil (by omega)
    rw [hrest, List.append_assoc, charsBetween_append, charsBetween_append, Nat.zero_add, hfront,
      hinside, hbehind, List.nil_append, List.append_nil]
  have hslice := slice?_eq_charsBetween hspan.start hboundary (by omega : span.start ≤ stop)
  rw [hchars] at hslice
  simp only [width, ← hstop, hslice]

/-- The excerpt of a source at a span, in terms of the line in which the span starts. -/
theorem excerpt_eq (h : IsLineAt cs span.start front line back) (hspan : span.LiesIn cs) :
    excerpt cs span =
      let number := natText (front.count '\n' + 1)
      let before := charsBetween 0 span.start (utf8Length front) line
      let inside := charsBetween span.start span.stop (utf8Length front) (shownLine line back)
      "\n" ++ spaces (number.length + 1) ++ "--> " ++ number ++ ":" ++
          natText (before.length + 1) ++
        "\n" ++ spaces number.length ++ " |" ++
        "\n" ++ number ++ " | " ++ String.ofList (shownLine line back) ++
        "\n" ++ spaces number.length ++ " | " ++ spaces before.length ++
          carets (max inside.length 1) := by
  obtain ⟨htake, hlast⟩ := h.takeBytes_eq hspan.start
  have hstart : utf8Length (takeBytes span.start cs) -
      utf8Length (lastLine (takeBytes span.start cs)) = utf8Length front := by
    rw [hlast, htake, utf8Length_append, Nat.add_sub_cancel]
  unfold excerpt
  simp only [h.position_eq hspan.start, Nat.add_sub_cancel, h.getElem?_shownLines, hstart,
    width_eq h hspan]
  rw [carets]

/-- **Diagnostics underline what they are about.** An error with a place in the source is shown with
the line in which the place starts, below its number and column: under the shown line stand as many
spaces as there are characters of the line before the place, and as many carets as there are
characters of the shown line in the place, or one if there are none. The characters before the place
are shown too, unless it starts behind the carriage return of a line end; and the carets do not
leave the shown line if there is anything in it to underline. -/
theorem render_underlines_span {source : String} {e : CompileError} {span : Span}
    (hplace : e.span? = some span) (hspan : span.LiesIn source.toList) :
    (∃ front line back, IsLineAt source.toList span.start front line back) ∧
    ∀ front line back, IsLineAt source.toList span.start front line back →
      let shown := shownLine line back
      let number := natText (front.count '\n' + 1)
      let gutter := spaces number.length
      let before := (charsBetween 0 span.start (utf8Length front) line).length
      let inside := (charsBetween span.start span.stop (utf8Length front) shown).length
      render source e = "error: " ++ e.message ++
          "\n" ++ spaces (number.length + 1) ++ "--> " ++ number ++ ":" ++ natText (before + 1) ++
          "\n" ++ gutter ++ " |" ++
          "\n" ++ number ++ " | " ++ String.ofList shown ++
          "\n" ++ gutter ++ " | " ++ spaces before ++ carets (max inside 1) ∧
        (span.start ≤ utf8Length (front ++ shown) →
          before = (charsBetween 0 span.start (utf8Length front) shown).length) ∧
        (inside ≠ 0 → before + max inside 1 ≤ shown.length) := by
  refine ⟨exists_isLineAt hspan.start, fun front line back h => ?_⟩
  intro shown number gutter before inside
  refine ⟨?_, fun hstart => ?_, fun hinside => ?_⟩
  · rw [render, hplace]
    simp only [excerpt_eq h hspan, String.append_assoc]
    rfl
  · rw [utf8Length_append] at hstart
    exact congrArg List.length (charsBetween_shownLine hstart)
  · -- a character in the span ends behind its start, so the span does not start behind the line
    have hstart : span.start ≤ utf8Length front + utf8Length shown := by
      by_contra hbehind
      have hnone : charsBetween span.start span.stop (utf8Length front) shown = [] :=
        charsBetween_eq_nil (by omega)
      exact hinside (congrArg List.length hnone)
    have hdisjoint := length_charsBetween_add_le 0 span.start span.stop (utf8Length front) shown
    rw [← charsBetween_shownLine hstart] at hdisjoint
    omega

/-- A comparison that goes on in the next line, with a character of two bytes and a carriage return
at the end of its first line: it is underlined up to there. -/
theorem render_underlines_open_comparison :
    let source := "a = 1 AND\r\n b IN 'é\r\nz'"
    let e := CompileError.operand ⟨⟨12, 24⟩, "IN", "an array", "a string"⟩
    ({} : Compiler).compile source = .error e ∧ Span.LiesIn ⟨12, 24⟩ source.toList ∧
      render source e = "error: " ++ e.message ++
        "\n  --> 2:2\n  |\n2 |  b IN 'é\n  |  ^^^^^^^" := by
  intro source e
  have hfault : Except.fault? (({} : Compiler).compile source) = some e := by decide +kernel
  have hspan : Span.LiesIn ⟨12, 24⟩ source.toList := by
    constructor <;> decide +kernel
  have hline : IsLineAt source.toList 12 "a = 1 AND\r\n".toList " b IN 'é\r".toList
      "\nz'".toList := by
    have hlast : "a = 1 AND\r\n".toList.getLast? = some '\n' := by decide +kernel
    refine ⟨by decide +kernel, ?_, by decide +kernel, ?_, by decide +kernel, by decide +kernel⟩
    · rw [hlast]
      rintro c ⟨⟩
      rfl
    · rintro c ⟨⟩
      rfl
  have hplace : e.span? = some ⟨12, 24⟩ := rfl
  obtain ⟨hrender, -, -⟩ := (render_underlines_span hplace hspan).2 _ _ _ hline
  refine ⟨Except.fault?_eq_some_iff.mp hfault, hspan, hrender.trans ?_⟩
  decide +kernel

end Diagnostic

end QueryFilter
