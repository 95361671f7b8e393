import QueryFilter.Text.Offset

/-!
# Texts cut at byte offsets

An offset is a character boundary of a text if it is the byte length of a part in front of it, and
the text between two boundaries is the part that stands between them. So cutting by bytes and
putting texts together are inverse to each other, whatever the characters take in bytes.

## Main definitions

* `Text.isBoundary` — the offsets at which a text can be cut

## Main results

* `Text.splitBytes?_eq_some_iff`, `Text.isBoundary_iff` — the cuts of a text
* `Text.slice?_eq_some_iff` — the text between two offsets
* `Text.slice?_takeBytes`, `Text.slice?_lastLine` — the text before an offset, and its last line
* `Text.span_append` — the characters in front that have a property
-/

namespace QueryFilter

namespace Text

/-- Whether a byte offset of a text lies between two of its characters, or at one of its ends. -/
def isBoundary (cs : List Char) (n : Nat) : Bool := (splitBytes? n cs).isSome

/-- A character takes at least one byte. -/
theorem utf8Length_pos {cs : List Char} (h : cs ≠ []) : 0 < utf8Length cs := by
  obtain ⟨c, cs, rfl⟩ := List.exists_cons_of_ne_nil h
  rw [utf8Length_cons]
  exact Nat.add_pos_left c.utf8Size_pos _

theorem splitBytes?_append (as bs : List Char) :
    splitBytes? (utf8Length as) (as ++ bs) = some (as, bs) := by
  induction as with
  | nil => rw [utf8Length_nil, splitBytes?, List.nil_append]
  | cons c as ih =>
    have hpos := utf8Length_pos (List.cons_ne_nil c as)
    obtain ⟨n, hn⟩ := Nat.exists_eq_add_one.mpr hpos
    rw [utf8Length_cons] at hn
    have hle : c.utf8Size ≤ n + 1 := by omega
    have hleft : n + 1 - c.utf8Size = utf8Length as := by omega
    rw [utf8Length_cons, hn, List.cons_append, splitBytes?, if_pos hle, hleft, ih]
    rfl

/-- The text is cut at an offset if the part in front takes that many bytes. -/
theorem splitBytes?_eq_some_iff {n : Nat} {cs as bs : List Char} :
    splitBytes? n cs = some (as, bs) ↔ cs = as ++ bs ∧ n = utf8Length as := by
  constructor
  · intro h
    fun_induction splitBytes? n cs generalizing as bs with
    | case1 cs =>
      cases h
      exact ⟨rfl, rfl⟩
    | case2 => cases h
    | case3 n c cs hle ih =>
      obtain ⟨⟨as', bs'⟩, hsplit, heq⟩ := Option.map_eq_some_iff.mp h
      cases heq
      obtain ⟨rfl, hn⟩ := ih hsplit
      refine ⟨rfl, ?_⟩
      rw [utf8Length_cons]
      omega
    | case4 => cases h
  · rintro ⟨rfl, rfl⟩
    exact splitBytes?_append as bs

theorem isBoundary_iff {n : Nat} {cs : List Char} :
    isBoundary cs n ↔ ∃ before after, cs = before ++ after ∧ n = utf8Length before := by
  simp only [isBoundary, Option.isSome_iff_exists, Prod.exists, splitBytes?_eq_some_iff]

/-- The text between two offsets is what stands there. -/
theorem slice?_eq_some_iff {cs text : List Char} {start stop : Nat} :
    slice? cs start stop = some text ↔ ∃ before after, cs = before ++ text ++ after ∧
      start = utf8Length before ∧ stop = utf8Length (before ++ text) := by
  constructor
  · intro h
    rw [slice?] at h
    split at h
    · rename_i hle
      obtain ⟨⟨before, rest⟩, hfront, hrest⟩ := Option.bind_eq_some_iff.mp h
      obtain ⟨⟨text', after⟩, htext, rfl⟩ := Option.map_eq_some_iff.mp hrest
      obtain ⟨rfl, rfl⟩ := splitBytes?_eq_some_iff.mp hfront
      obtain ⟨rfl, hlength⟩ := splitBytes?_eq_some_iff.mp htext
      refine ⟨before, after, by rw [List.append_assoc], rfl, ?_⟩
      rw [utf8Length_append, ← hlength]
      omega
    · cases h
  · rintro ⟨before, after, rfl, rfl, rfl⟩
    rw [slice?, utf8Length_append, if_pos (Nat.le_add_right _ _), List.append_assoc,
      splitBytes?_append, Option.bind_some, Nat.add_sub_cancel_left]
    simp only [splitBytes?_append, Option.map_some]

/-! ### Text before an offset -/

theorem takeBytes_append (as bs : List Char) : takeBytes (utf8Length as) (as ++ bs) = as := by
  induction as with
  | nil =>
    cases bs with
    | nil => rfl
    | cons c bs =>
      have hpos : ¬ c.utf8Size ≤ 0 := Nat.not_le.mpr c.utf8Size_pos
      rw [utf8Length_nil, List.nil_append, takeBytes, if_neg hpos]
  | cons c as ih =>
    rw [utf8Length_cons, List.cons_append, takeBytes, if_pos (Nat.le_add_right _ _),
      Nat.add_sub_cancel_left, ih]

/-- Up to a boundary, the whole characters are all of the text. -/
theorem slice?_takeBytes {n : Nat} {cs : List Char} (h : isBoundary cs n) :
    slice? cs 0 n = some (takeBytes n cs) := by
  obtain ⟨before, after, rfl, rfl⟩ := isBoundary_iff.mp h
  rw [takeBytes_append]
  exact slice?_eq_some_iff.mpr ⟨[], after, rfl, rfl, rfl⟩

/-- The last line before a boundary is the end of the text before it. -/
theorem slice?_lastLine {n : Nat} {cs : List Char} (h : isBoundary cs n) :
    slice? cs (utf8Length (takeBytes n cs) - utf8Length (lastLine (takeBytes n cs))) n =
      some (lastLine (takeBytes n cs)) := by
  obtain ⟨before, after, rfl, rfl⟩ := isBoundary_iff.mp h
  rw [takeBytes_append]
  obtain ⟨front, hfront⟩ : lastLine before <:+ before := by
    rw [lastLine, ← List.reverse_prefix, List.reverse_reverse]
    exact List.takeWhile_prefix _
  have hlength : utf8Length before = utf8Length front + utf8Length (lastLine before) := by
    rw [← utf8Length_append, hfront]
  refine slice?_eq_some_iff.mpr ⟨front, after, by rw [hfront], ?_, by rw [hfront]⟩
  rw [hlength, Nat.add_sub_cancel]

/-- Characters with a property, before one without it, are those that are taken from the front. -/
theorem span_append {p : Char → Bool} {as rest : List Char} (has : ∀ c ∈ as, p c)
    (hrest : ∀ c ∈ rest.head?, p c = false) :
    (as ++ rest).takeWhile p = as ∧ (as ++ rest).dropWhile p = rest := by
  rw [List.takeWhile_append_of_pos has, List.dropWhile_append_of_pos has]
  cases rest with
  | nil => simp
  | cons c rest => simp [hrest c rfl]

end Text

end QueryFilter
