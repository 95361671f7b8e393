import QueryFilter.Proofs.Query.Refusal
import QueryFilter.Proofs.Token.Composition

/-!
# Tokens of a part of a text

A part of a text that starts with one of its tokens and ends with another one has the tokens between
them, and no others. They are found where the part starts, so each of them stands as much further on
in the whole text as the part does.

What stands in front of the part has been read by then, and does not matter. The text behind the
part might matter in two ways, and each time what stands in the part decides: how a token ends
depends on the next character at most, and the name of a typed literal on the next one that is not
blank. Only the last token of the part has neither in the part; for that one, the end of the text is
as good as what followed it.

## Main results

* `Token.exists_cursor_of_scanFrom` — the tokens behind others
* `Token.exists_text_of_scanFrom` — the tokens in front of others
* `Token.Scans.excerpt` — the tokens between others
-/

namespace QueryFilter

open Text

namespace Token

/-- A token with others after it has been read, and the others behind it. -/
theorem exists_read_of_scanFrom {cursor : Cursor} {token : Token} {tokens : List Token}
    (h : scanFrom cursor = ⟨token :: tokens, none⟩) (hne : tokens ≠ []) :
    ∃ start c cs kind next, cursor.skipBlanks = ⟨start, c :: cs⟩ ∧
      read start c cs = .ok (kind, next) ∧ token = ⟨kind, start, next.position⟩ ∧
      scanFrom next = ⟨tokens, none⟩ := by
  cases hstart : cursor.skipBlanks with
  | mk start rest =>
    cases rest with
    | nil =>
      rw [scanFrom_of_end hstart, Scan.mk.injEq, List.cons.injEq] at h
      exact absurd h.1.2.symm hne
    | cons c cs =>
      cases hread : read start c cs with
      | error e =>
        rw [scanFrom_of_error hstart hread] at h
        cases h
      | ok found =>
        obtain ⟨kind, next⟩ := found
        rw [scanFrom_of_read hstart hread, Scan.cons, Scan.mk.injEq, List.cons.injEq] at h
        obtain ⟨⟨htoken, htokens⟩, hfault⟩ := h
        refine ⟨start, c, cs, kind, next, rfl, hread, htoken.symm, ?_⟩
        rw [← htokens, ← hfault]

/-- The place after blanks has no blanks in front. -/
theorem skipBlanks_skipBlanks (cursor : Cursor) :
    cursor.skipBlanks.skipBlanks = cursor.skipBlanks :=
  Cursor.skipBlanks_eq_iff.mpr
    ⟨(Cursor.skipBlanks_eq_iff.mp rfl).1, [], List.forall_mem_nil _, rfl, rfl⟩

/-- **The tokens behind others** are the tokens of the text from the start of the first of them. -/
theorem exists_cursor_of_scanFrom {cursor : Cursor} {before tokens : List Token} {first : Token}
    (h : scanFrom cursor = ⟨before ++ first :: tokens, none⟩) (hne : tokens ≠ []) :
    ∃ front rest, cursor.rest = front ++ rest ∧
      first.span.start = cursor.position + utf8Length front ∧
      scanFrom ⟨first.span.start, rest⟩ = ⟨first :: tokens, none⟩ := by
  induction before generalizing cursor with
  | nil =>
    -- the part starts with its first token, not with the blanks before it
    obtain ⟨start, c, cs, kind, next, hstart, -, rfl, -⟩ := exists_read_of_scanFrom h hne
    obtain ⟨-, blanks, -, hcursor, hblanks⟩ := Cursor.skipBlanks_eq_iff.mp hstart
    refine ⟨blanks, c :: cs, hcursor, hblanks, ?_⟩
    rw [← hstart, scanFrom_congr (skipBlanks_skipBlanks cursor)]
    exact h
  | cons token before ih =>
    obtain ⟨start, c, cs, kind, next, hstart, hread, -, hnext⟩ :=
      exists_read_of_scanFrom h (List.append_ne_nil_of_right_ne_nil before (List.cons_ne_nil _ _))
    obtain ⟨front, rest, hrest, hposition, hscan⟩ := ih hnext
    obtain ⟨-, blanks, -, hcursor, hblanks⟩ := Cursor.skipBlanks_eq_iff.mp hstart
    obtain ⟨body, rfl, hbody, -⟩ := read_local hread
    refine ⟨blanks ++ c :: body ++ front, rest, ?_, ?_, hscan⟩
    · simp only [hcursor, hrest, List.append_assoc, List.cons_append]
    · simp only at hblanks
      simp only [hposition, hbody, hblanks, utf8Length_append, Nat.add_assoc]

/-- A front part of the text behind a token can stand in for all of it, if it has the first
character that is not blank or nothing at all. -/
theorem replaces_front {name text rest : List Char}
    (h : text = [] ∨ Text.skipBlanks text ≠ []) : Replaces name (text ++ rest) text := by
  rcases h with rfl | hblank
  · exact ⟨endsAlike_nil _, fun _ hopens => absurd hopens (by decide)⟩
  · have hne : text ≠ [] := by
      rintro rfl
      exact hblank rfl
    refine ⟨?_, fun _ hopens => ?_⟩
    · have hends := endsAlike_append_of_ne_nil hne rest []
      rwa [List.append_nil] at hends
    · rwa [opensParen_append_of_not_blank hblank]

/-- **The tokens in front of others** are the tokens of the text up to the end of the last of them.
-/
theorem exists_text_of_scanFrom {cursor : Cursor} {tokens after : List Token}
    (h : scanFrom cursor = ⟨tokens ++ after, none⟩) (hne : after ≠ []) :
    ∃ text rest, cursor.rest = text ++ rest ∧ (text = [] ∨ Text.skipBlanks text ≠ []) ∧
      scanFrom ⟨cursor.position, text⟩ = ⟨withEnd cursor.position tokens, none⟩ := by
  induction tokens generalizing cursor with
  | nil => exact ⟨[], cursor.rest, rfl, .inl rfl, scanFrom_of_end rfl⟩
  | cons token tokens ih =>
    obtain ⟨start, c, cs, kind, next, hstart, hread, rfl, hnext⟩ :=
      exists_read_of_scanFrom h (List.append_ne_nil_of_right_ne_nil tokens hne)
    obtain ⟨text, rest, hrest, hblank, hscan⟩ := ih hnext
    obtain ⟨hfirst, blanks, hblanks, hcursor, hposition⟩ := Cursor.skipBlanks_eq_iff.mp hstart
    obtain ⟨body, rfl, hbody, hlocal⟩ := read_local hread
    rw [hrest] at hlocal hcursor
    have hread' := hlocal start text (replaces_front hblank)
    rw [← hbody] at hread'
    have hc : isBlank c = false := hfirst c rfl
    have hstart' : Cursor.skipBlanks ⟨cursor.position, blanks ++ c :: (body ++ text)⟩ =
        ⟨start, c :: (body ++ text)⟩ := by
      rw [Cursor.skipBlanks_append hblanks hc, ← hposition]
    refine ⟨blanks ++ c :: (body ++ text), rest, ?_, .inr ?_, ?_⟩
    · simp only [hcursor, List.append_assoc, List.cons_append]
    · have hskip : Text.skipBlanks (blanks ++ c :: (body ++ text)) = c :: (body ++ text) :=
        congrArg Cursor.rest hstart'
      rw [hskip]
      exact List.cons_ne_nil c _
    · rw [scanFrom_of_read hstart' hread', hscan, withEnd_cons]
      rfl

/-- A text that is scanned from an offset has the same tokens by itself, at its own places. -/
theorem scans_of_scanFrom {n : Nat} {text : List Char} {tokens : List Token} {last : Token}
    (h : scanFrom ⟨n, text⟩ = ⟨tokens ++ [last], none⟩) :
    ∃ alone, Scans (String.ofList text) alone ∧ alone.map (Token.shift n) = tokens := by
  have hshift : (scanFrom ⟨0, text⟩).shift n = ⟨tokens ++ [last], none⟩ := by
    rw [← scanFrom_shift, ← h, Cursor.shift, Nat.zero_add]
  obtain ⟨htokens, hfault⟩ := Scan.mk.inj hshift
  have hnone := Option.map_eq_none_iff.mp hfault
  obtain ⟨alone, stop, halone, -⟩ := exists_eq_append_of_scanFrom hnone
  refine ⟨alone, ⟨stop, ofText_eq_ok_iff.mpr ?_⟩, ?_⟩
  · rw [scan, String.toList_ofList, ← halone, ← hnone]
  · rw [halone, List.map_append] at htokens
    exact (List.append_inj' htokens rfl).1

/-- **The tokens between others** are those of the text that they cover, as far behind its start as
they stand behind the start of the first of them. -/
theorem Scans.excerpt {source : String} {before tokens after : List Token} {first last : Token}
    (h : Scans source (before ++ tokens ++ after)) (hfirst : tokens.head? = some first)
    (hlast : tokens.getLast? = some last) :
    ∃ text alone, Covers 0 source.toList ⟨first.span.start, last.span.stop⟩ text ∧
      Scans (String.ofList text) alone ∧ alone.map (Token.shift first.span.start) = tokens := by
  obtain ⟨stop, htext⟩ := h
  obtain ⟨more, rfl⟩ := List.head?_eq_some_iff.mp hfirst
  rw [List.append_assoc, List.append_assoc, List.cons_append] at htext
  obtain ⟨front, behind, hsource, hstart, hscan⟩ :=
    exists_cursor_of_scanFrom (ofText_eq_ok_iff.mp htext) (by simp)
  rw [← List.cons_append] at hscan
  obtain ⟨text, rest, rfl, -, hpart⟩ := exists_text_of_scanFrom hscan (by simp)
  obtain ⟨alone, hscans, htokens⟩ := scans_of_scanFrom hpart
  have hstop : last.span.stop = first.span.start + utf8Length text := by
    obtain ⟨_, hend, -⟩ := (tiles_scanFrom (congrArg Scan.fault hpart)).exists_eq_append
    rw [hpart, withEnd, hlast] at hend
    have hpoint := (List.append_inj' hend rfl).2
    rw [List.singleton_inj, Token.mk.injEq] at hpoint
    exact congrArg Span.stop hpoint.2
  refine ⟨text, alone, ⟨front, rest, ?_, ?_⟩, hscans, htokens⟩
  · rw [List.append_assoc]
    exact hsource
  · rw [hstop, hstart, utf8Length_append, Nat.add_assoc]

end Token

end QueryFilter
