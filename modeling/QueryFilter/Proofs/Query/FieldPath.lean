import QueryFilter.Query.Basic

/-!
# Field paths and their spelling

A path is spelled with dots between its segments. Cutting a text at its dots and joining the pieces
again gives the text back, whatever the text is; the other way round, a path comes back from its
spelling if it has a segment and no segment has a dot in it. Such paths are *proper*, and they are
the only ones that a text can spell.

## Main results

* `FieldPath.dotted_ofDotted` — every text is the spelling of the path that it spells
* `FieldPath.ofDotted_dotted` — a proper path is read back from its spelling
* `FieldPath.isProper_ofDotted` — a text spells a proper path
-/

namespace QueryFilter

namespace Text

variable {α : Type} [DecidableEq α]

/-- Cutting at a separator is the list operation of that name. -/
theorem pieces_eq_splitOn (separator : α) (cs : List α) :
    pieces separator cs = cs.splitOn separator := by
  induction cs with
  | nil => rfl
  | cons c cs ih =>
    rw [pieces, List.splitOn_cons_eq_if_modifyHead, ih]
    by_cases hc : c = separator
    · simp [hc]
    · rw [if_neg hc, if_neg (by simpa using hc)]
      cases h : cs.splitOn separator with
      | nil => exact absurd h (List.splitOn_ne_nil _ _)
      | cons piece more => rfl

theorem pieces_ne_nil (separator : α) (cs : List α) : pieces separator cs ≠ [] := by
  rw [pieces_eq_splitOn]
  exact List.splitOn_ne_nil _ _

theorem joinPieces_pieces (separator : α) (cs : List α) :
    joinPieces separator (pieces separator cs) = cs := by
  rw [pieces_eq_splitOn, joinPieces, List.intercalate_splitOn]

theorem pieces_joinPieces {separator : α} {ps : List (List α)} (hne : ps ≠ [])
    (hps : ∀ p ∈ ps, separator ∉ p) : pieces separator (joinPieces separator ps) = ps := by
  rw [pieces_eq_splitOn, joinPieces, List.splitOn_intercalate _ hps hne]

/-- No piece has the separator in it. -/
theorem not_mem_of_mem_pieces {separator : α} {cs piece : List α}
    (h : piece ∈ pieces separator cs) : separator ∉ piece := by
  induction cs generalizing piece with
  | nil =>
    rw [pieces, List.mem_singleton] at h
    simp [h]
  | cons c cs ih =>
    rw [pieces] at h
    split at h
    · rcases List.mem_cons.mp h with rfl | h
      · exact List.not_mem_nil
      · exact ih h
    · rename_i hc
      split at h
      · rename_i hnil
        exact absurd hnil (pieces_ne_nil _ _)
      · rename_i first more hmore
        rcases List.mem_cons.mp h with rfl | h
        · have hfirst : separator ∉ first := ih (hmore ▸ List.mem_cons_self)
          simpa [hfirst] using fun heq : separator = c => hc heq.symm
        · exact ih (hmore ▸ List.mem_cons_of_mem _ h)

end Text

namespace FieldPath

/-- A path that has a segment, and no dot in any of them. -/
def isProper (path : FieldPath) : Bool :=
  !path.segments.isEmpty && path.segments.all fun s => !s.toList.contains '.'

theorem isProper_iff {path : FieldPath} :
    path.isProper ↔ path.segments ≠ [] ∧ ∀ s ∈ path.segments, '.' ∉ s.toList := by
  simp [isProper]

@[simp] theorem dotted_ofDotted (text : String) : (ofDotted text).dotted = text := by
  have hmap : ((Text.pieces '.' text.toList).map String.ofList).map String.toList =
      Text.pieces '.' text.toList := by
    rw [List.map_map, List.map_congr_left fun p _ => by exact String.toList_ofList, List.map_id']
  rw [dotted, ofDotted, hmap, Text.joinPieces_pieces, String.ofList_toList]

theorem ofDotted_dotted {path : FieldPath} (h : path.isProper) : ofDotted path.dotted = path := by
  obtain ⟨hne, hdots⟩ := isProper_iff.mp h
  have hpieces : ∀ p ∈ path.segments.map String.toList, '.' ∉ p := by
    intro p hp
    obtain ⟨s, hs, rfl⟩ := List.mem_map.mp hp
    exact hdots s hs
  rw [ofDotted, dotted, String.toList_ofList, Text.pieces_joinPieces (by simpa using hne) hpieces,
    List.map_map, List.map_congr_left fun s _ => by exact String.ofList_toList, List.map_id']

@[simp] theorem isProper_ofDotted (text : String) : (ofDotted text).isProper := by
  refine isProper_iff.mpr ⟨?_, ?_⟩
  · simpa [ofDotted] using Text.pieces_ne_nil '.' text.toList
  · intro s hs
    obtain ⟨p, hp, rfl⟩ := List.mem_map.mp hs
    rw [String.toList_ofList]
    exact Text.not_mem_of_mem_pieces hp

end FieldPath

end QueryFilter
