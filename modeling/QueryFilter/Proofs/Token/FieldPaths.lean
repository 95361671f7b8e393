import QueryFilter.Proofs.Token.Excerpt

/-!
# The texts that are fields

A field is written as a path: a name, and then further segments with dots between them. The grammar
has two forms of further segments, names and indices of array items, and it sets aside the keywords,
which are names without a dot.

The scanner is more generous than the grammar in one place. After a dot it asks only how a segment
starts, with a letter, an underscore or a digit, and then goes on as in a name. So it takes `a.0b`
for a field, though `0b` is neither a name nor an index: a *mixed* segment. It is the only
difference, and without a mixed segment the texts that are fields are exactly those of the grammar.

## Main definitions

* `Token.isName`, `Token.isIndex`, `Token.isMixed` — the forms of segments
* `Token.isPathSegment`, `Token.isLooseSegment` — further segments of a path, in the grammar and as
  they are read
* `Token.IsPath` — a name and segments of a form, with dots between them
* `Token.isKeyword` — the names that are no fields
* `Token.IsField` — a text that is one field

## Main results

* `Token.readPath_eq_self_iff` — the texts that are read as a path to the end
* `Token.isField_iff_readPath` — a field is such a text that starts a name and is no keyword
* `Token.isPath_isPathSegment_iff` — the grammar refuses mixed segments and nothing else
* `Token.isField_iff_isPath` — the texts that are fields, and when they are those of the grammar
-/

namespace QueryFilter

namespace Token

open Text

/-! ### Segments -/

/-- A name: a letter or an underscore, and then letters, digits and the signs `_`, `$` and `-`. -/
def isName : List Char → Bool
  | [] => false
  | c :: cs => (c.isAlpha || c = '_') &&
      cs.all fun d => d.isAlphanum || d = '_' || d = '$' || d = '-'

/-- The index of an array item: digits and nothing else. -/
def isIndex (cs : List Char) : Bool := !cs.isEmpty && cs.all isDigit

/-- Digits that run into the characters of a name: neither a name nor an index. -/
def isMixed (cs : List Char) : Bool :=
  cs.head?.any isDigit && cs.all isNameChar && !cs.all isDigit

/-- A further segment of a path as the grammar has it. -/
def isPathSegment (cs : List Char) : Bool := isName cs || isIndex cs

/-- A further segment of a path as it is read: of the grammar, or mixed. -/
def isLooseSegment (cs : List Char) : Bool := isPathSegment cs || isMixed cs

/-- A text of segments with dots between them: a name, and then segments of the given form. -/
def IsPath (segment : List Char → Bool) (text : List Char) : Prop :=
  ∃ first more, text = joinPieces '.' (first :: more) ∧ isName first ∧ ∀ s ∈ more, segment s

theorem isName_iff {cs : List Char} :
    isName cs ↔ cs.head?.any isNameStart ∧ cs.all isNameChar := by
  cases cs with
  | nil => simp [isName]
  | cons c cs =>
    have hname : isName (c :: cs) = (isNameStart c && cs.all isNameChar) := rfl
    rw [hname, Bool.and_eq_true, List.all_cons, Bool.and_eq_true]
    constructor
    · rintro ⟨hc, hcs⟩
      exact ⟨hc, isNameChar_of_isNameStart hc, hcs⟩
    · rintro ⟨hc, -, hcs⟩
      exact ⟨hc, hcs⟩

/-- What follows a dot: it starts like a name or an index, and goes on like a name. -/
theorem isLooseSegment_iff {cs : List Char} :
    isLooseSegment cs ↔ cs.head?.any isSegmentStart ∧ cs.all isNameChar := by
  cases cs with
  | nil => simp [isLooseSegment, isPathSegment, isName, isIndex, isMixed]
  | cons c cs =>
    have hdigits : (c :: cs).all isDigit → (c :: cs).all isNameChar := by
      intro h
      refine List.all_eq_true.mpr fun d hd => isNameChar_of_isSegmentStart ?_
      rw [isSegmentStart, List.all_eq_true.mp h d hd, Bool.or_true]
    have hindex : isIndex (c :: cs) = (c :: cs).all isDigit := rfl
    have hmixed : isMixed (c :: cs) =
        (isDigit c && (c :: cs).all isNameChar && !(c :: cs).all isDigit) := rfl
    have hstart : (c :: cs).head?.any isSegmentStart = (isNameStart c || isDigit c) := rfl
    rw [isLooseSegment, isPathSegment, Bool.or_eq_true, Bool.or_eq_true, isName_iff, hindex, hmixed,
      hstart]
    simp only [Bool.and_eq_true, Bool.or_eq_true, Bool.not_eq_true']
    constructor
    · rintro ((⟨hc, hcs⟩ | hall) | ⟨⟨hc, hcs⟩, -⟩)
      · exact ⟨.inl hc, hcs⟩
      · exact ⟨.inr (List.all_eq_true.mp hall c List.mem_cons_self), hdigits hall⟩
      · exact ⟨.inr hc, hcs⟩
    · rintro ⟨hc | hc, hcs⟩
      · exact .inl (.inl ⟨hc, hcs⟩)
      · cases hall : (c :: cs).all isDigit with
        | true => exact .inl (.inr rfl)
        | false => exact .inr ⟨⟨hc, hcs⟩, rfl⟩

/-! ### Paths that are read to the end -/

/-- A text starts like its first piece, if it does not start with the separator. -/
theorem any_head?_pieces {p : Char → Bool} (hp : p '.' = false) {cs first : List Char}
    {more : List (List Char)} (h : pieces '.' cs = first :: more) :
    first.head?.any p = cs.head?.any p := by
  cases cs with
  | nil =>
    cases h
    rfl
  | cons c cs =>
    by_cases hc : c = '.'
    · rw [pieces, if_pos hc] at h
      cases h
      rw [List.head?_cons, Option.any_some, hc, hp]
      rfl
    · rw [head?_pieces hc rfl h, List.head?_cons]

/-- One more character in front of a path that is read to the end. -/
theorem map_cons_eq_ok_iff {c : Char} {cs : List Char}
    {result : Except LexError (List Char × List Char)} :
    result.map (fun (path, rest) => (c :: path, rest)) = .ok (c :: cs, []) ↔
      result = .ok (cs, []) := by
  rw [Except.map_eq_ok_iff]
  constructor
  · rintro ⟨⟨path, rest⟩, hresult, heq⟩
    cases heq
    exact hresult
  · intro hresult
    exact ⟨(cs, []), hresult, rfl⟩

/-- **A text is read as a path to the end** if its first piece has only characters of names in it,
and every further piece is a segment. -/
theorem readPath_eq_self_iff {position : Nat} {cs first : List Char} {more : List (List Char)}
    (h : pieces '.' cs = first :: more) :
    readPath position cs = .ok (cs, []) ↔
      first.all isNameChar ∧ ∀ s ∈ more, isLooseSegment s := by
  induction cs generalizing position first more with
  | nil =>
    cases h
    simp [readPath]
  | cons c cs ih =>
    obtain ⟨next, rest, hnext⟩ := List.exists_cons_of_ne_nil (pieces_ne_nil '.' cs)
    by_cases hc : c = '.'
    · -- the dot ends an empty piece, and the next piece has to be a segment
      rw [pieces, if_pos hc, hnext] at h
      cases h
      have hstart := any_head?_pieces (p := isSegmentStart) (by decide) hnext
      rw [List.forall_mem_cons, isLooseSegment_iff, hstart, readPath]
      by_cases hsegment : cs.head?.any isSegmentStart
      · rw [if_neg (by simp [hsegment]), if_pos (by simp [hc]), map_cons_eq_ok_iff, ih hnext]
        simp [hsegment]
      · rw [if_pos (by simp [hc, hsegment])]
        simp [hsegment]
    · rw [pieces, if_neg hc, hnext] at h
      cases h
      rw [readPath, if_neg (by simp [hc]), List.all_cons, Bool.and_eq_true]
      by_cases hchar : isNameChar c
      · rw [if_pos (by simp [hchar]), map_cons_eq_ok_iff, ih hnext]
        simp [hchar]
      · rw [if_neg (by simp [hc, hchar])]
        simp [hchar]

theorem not_mem_of_all_isNameChar {cs : List Char} (h : cs.all isNameChar) : '.' ∉ cs :=
  fun hdot => ne_dot_of_isNameChar (List.all_eq_true.mp h '.' hdot) rfl

theorem all_isNameChar_of_isPathSegment {cs : List Char} (h : isPathSegment cs) :
    cs.all isNameChar :=
  (isLooseSegment_iff.mp (by rw [isLooseSegment, h, Bool.true_or])).2

/-- The segments of a path are the pieces between its dots. -/
theorem isPath_iff {segment : List Char → Bool} (hsegment : ∀ s, segment s → s.all isNameChar)
    {cs first : List Char} {more : List (List Char)} (h : pieces '.' cs = first :: more) :
    IsPath segment cs ↔ isName first ∧ ∀ s ∈ more, segment s := by
  constructor
  · rintro ⟨first', more', rfl, hfirst, hmore⟩
    have hdots : ∀ s ∈ first' :: more', '.' ∉ s := List.forall_mem_cons.mpr
      ⟨not_mem_of_all_isNameChar (isName_iff.mp hfirst).2,
        fun s hs => not_mem_of_all_isNameChar (hsegment s (hmore s hs))⟩
    rw [pieces_joinPieces (List.cons_ne_nil _ _) hdots] at h
    cases h
    exact ⟨hfirst, hmore⟩
  · rintro ⟨hfirst, hmore⟩
    exact ⟨first, more, by rw [← h, joinPieces_pieces], hfirst, hmore⟩

/-! ### Keywords -/

/-- The names that are no fields, in lower case. -/
def keywords : List String := ["and", "or", "not", "in", "exists", "true", "false", "null"]

/-- Whether a text is a keyword, in any case. -/
def isKeyword (text : String) : Bool := text.toLower ∈ keywords

theorem toList_toLower (text : String) : text.toLower.toList = text.toList.map Char.toLower :=
  String.toList_map

theorem isKeyword_ofList (name : List Char) :
    isKeyword (String.ofList name) = decide (String.ofList (name.map Char.toLower) ∈ keywords) := by
  have hlower : (String.ofList name).toLower = String.ofList (name.map Char.toLower) := by
    apply String.toList_injective
    rw [toList_toLower, String.toList_ofList, String.toList_ofList]
  rw [isKeyword, hlower]

/-- A name is a field with its own spelling, unless it is a keyword. -/
theorem ofName_eq_field_iff {name : List Char} {path : String} :
    ofName name = .field path ↔ path = String.ofList name ∧ isKeyword path = false := by
  constructor
  · intro h
    have hpath : path = String.ofList name := by
      rcases ofName_cases name with hword | hfield
      · rw [h] at hword
        simp at hword
      · rw [hfield] at h
        exact (TokenKind.field.inj h).symm
    refine ⟨hpath, ?_⟩
    rw [hpath, isKeyword_ofList, decide_eq_false_iff_not]
    intro hword
    simp only [keywords, List.mem_cons, List.not_mem_nil, or_false] at hword
    rcases hword with hw | hw | hw | hw | hw | hw | hw | hw
    all_goals simp [ofName, hw] at h
  · rintro ⟨rfl, hword⟩
    rw [isKeyword_ofList, decide_eq_false_iff_not] at hword
    simp only [keywords, List.mem_cons, List.not_mem_nil, or_false, not_or] at hword
    simp only [ofName, hword, if_false]

/-! ### Fields -/

/-- A text that is one field, from its start to its end. -/
def IsField (text : String) : Prop :=
  ofText text = .ok [⟨.field text, ⟨0, byteLength text⟩⟩, ⟨.endOfInput, .point (byteLength text)⟩]

theorem not_isBlank_of_isNameStart {c : Char} (h : isNameStart c) : isBlank c = false := by
  refine Bool.eq_false_iff.mpr fun hblank => ?_
  have hends := not_isNameChar_of_endsToken (endsToken_of_isBlank hblank)
  rw [isNameChar_of_isNameStart h] at hends
  cases hends

/-- **A field is a path that is read to the end**, starts like a name and is no keyword. -/
theorem isField_iff_readPath {text : String} :
    IsField text ↔ text.toList.head?.any isNameStart ∧
      readPath 0 text.toList = .ok (text.toList, []) ∧ isKeyword text = false := by
  constructor
  · intro h
    obtain ⟨start, c, cs, kind, next, hskip, hread, htoken, -⟩ :=
      exists_read_of_scanFrom (ofText_eq_ok_iff.mp h) (List.cons_ne_nil _ _)
    have hkind : kind = .field text := congrArg Token.kind htoken.symm
    rw [hkind] at hread
    obtain ⟨hc, name, rest, hpath, hname⟩ := exists_readPath_of_read_field hread
    obtain ⟨htext, hword⟩ := ofName_eq_field_iff.mp hname
    have hchars : text.toList = name := by rw [htext, String.toList_ofList]
    -- the path is as long as the text, so it is all of it
    have hcs := eq_append_of_readPath hpath
    have hrest : rest = [] := by
      have hlength := (hskip ▸ suffix_skipBlanks ⟨0, text.toList⟩).length_le
      simp only [hcs, hchars, List.length_append] at hlength
      exact List.eq_nil_of_length_eq_zero (by omega)
    have hread0 := readPath_local hpath (endsAlike_nil rest) 0
    rw [hrest, List.append_nil] at hcs
    rw [List.append_nil] at hread0
    rw [hchars]
    exact ⟨by rw [← hcs]; exact hc, hread0, hword⟩
  · rintro ⟨hstart, hpath, hword⟩
    cases hchars : text.toList with
    | nil => simp [hchars] at hstart
    | cons c cs =>
      rw [hchars] at hstart hpath
      have hc : isNameStart c := hstart
      have htext : text = String.ofList (c :: cs) := by rw [← hchars, String.ofList_toList]
      have hread : read 0 c cs = .ok (.field text, ⟨0 + utf8Length (c :: cs), []⟩) := by
        rw [read_of_isNameStart hc]
        exact readName_eq_ok_iff.mpr ⟨c :: cs, [], hpath,
          .inr ⟨fun _ => rfl, (ofName_eq_field_iff.mpr ⟨htext, hword⟩).symm, rfl⟩⟩
      obtain ⟨body, hbody, -, halone⟩ := standsAlone_of_read (not_isBlank_of_isNameStart hc) hread
      rw [List.append_nil] at hbody
      rw [← hbody, StandsAlone, ← htext, ← hchars] at halone
      exact halone

/-- What is read as a field: a path in which further segments may be mixed. -/
theorem isField_iff {text : String} :
    IsField text ↔ IsPath isLooseSegment text.toList ∧ isKeyword text = false := by
  obtain ⟨first, more, hpieces⟩ := List.exists_cons_of_ne_nil (pieces_ne_nil '.' text.toList)
  rw [isField_iff_readPath, readPath_eq_self_iff hpieces,
    isPath_iff (fun s hs => (isLooseSegment_iff.mp hs).2) hpieces, isName_iff,
    any_head?_pieces (p := isNameStart) (by decide) hpieces]
  simp only [and_assoc]

/-! ### Fields and the grammar -/

/-- A name starts with no digit, and an index goes on with nothing else. -/
theorem isMixed_of_isPathSegment {cs : List Char} (h : isPathSegment cs) : isMixed cs = false := by
  refine Bool.eq_false_iff.mpr fun hmixed => ?_
  simp only [isMixed, Bool.and_eq_true, Bool.not_eq_true'] at hmixed
  obtain ⟨⟨hdigit, -⟩, hall⟩ := hmixed
  rcases Bool.or_eq_true_iff.mp h with hname | hindex
  · obtain ⟨c, hc, hstart⟩ := (Option.any_eq_true _ _).mp (isName_iff.mp hname).1
    rw [hc, Option.any_some, not_isDigit_of_isNameStart hstart] at hdigit
    cases hdigit
  · rw [(Bool.and_eq_true_iff.mp hindex).2] at hall
    cases hall

theorem isPathSegment_iff {cs : List Char} :
    isPathSegment cs ↔ isLooseSegment cs ∧ isMixed cs = false := by
  rw [isLooseSegment, Bool.or_eq_true]
  constructor
  · intro h
    exact ⟨.inl h, isMixed_of_isPathSegment h⟩
  · rintro ⟨h | hmixed, hplain⟩
    · exact h
    · rw [hplain] at hmixed
      cases hmixed

theorem isMixed_of_isName {cs : List Char} (h : isName cs) : isMixed cs = false :=
  isMixed_of_isPathSegment (by rw [isPathSegment, h, Bool.true_or])

/-- **The grammar has no mixed segments**, and that is all that it refuses. -/
theorem isPath_isPathSegment_iff {cs : List Char} :
    IsPath isPathSegment cs ↔
      IsPath isLooseSegment cs ∧ ∀ s ∈ pieces '.' cs, isMixed s = false := by
  obtain ⟨first, more, hpieces⟩ := List.exists_cons_of_ne_nil (pieces_ne_nil '.' cs)
  rw [isPath_iff (fun s => all_isNameChar_of_isPathSegment) hpieces,
    isPath_iff (fun s hs => (isLooseSegment_iff.mp hs).2) hpieces, hpieces]
  constructor
  · rintro ⟨hfirst, hmore⟩
    exact ⟨⟨hfirst, fun s hs => (isPathSegment_iff.mp (hmore s hs)).1⟩,
      List.forall_mem_cons.mpr ⟨isMixed_of_isName hfirst,
        fun s hs => (isPathSegment_iff.mp (hmore s hs)).2⟩⟩
  · rintro ⟨⟨hfirst, hmore⟩, hmixed⟩
    exact ⟨hfirst, fun s hs =>
      isPathSegment_iff.mpr ⟨hmore s hs, hmixed s (List.mem_cons_of_mem first hs)⟩⟩

/-- A mixed segment is not the first one, so there is a dot before it. -/
theorem mem_dot_of_isMixed {cs s : List Char} (h : IsPath isLooseSegment cs)
    (hs : s ∈ pieces '.' cs) (hmixed : isMixed s) : '.' ∈ cs := by
  obtain ⟨first, more, hpieces⟩ := List.exists_cons_of_ne_nil (pieces_ne_nil '.' cs)
  have hfirst := ((isPath_iff (fun s hs => (isLooseSegment_iff.mp hs).2) hpieces).mp h).1
  rcases List.mem_cons.mp (hpieces ▸ hs) with rfl | hmore
  · rw [isMixed_of_isName hfirst] at hmixed
    cases hmixed
  · obtain ⟨next, rest, rfl⟩ := List.exists_cons_of_ne_nil (List.ne_nil_of_mem hmore)
    rw [← joinPieces_pieces '.' cs, hpieces]
    simp [joinPieces]

/-- No keyword has a dot in it. -/
theorem isKeyword_of_mem_dot {text : String} (h : '.' ∈ text.toList) : isKeyword text = false := by
  have hdots : ∀ word ∈ keywords, '.' ∉ word.toList := by decide
  refine decide_eq_false fun hword => hdots _ hword ?_
  rw [toList_toLower]
  exact List.mem_map.mpr ⟨'.', h, rfl⟩

/-- **The texts that are fields.** A text is one field, from its start to its end, if and only if it
is a path and no keyword, where a further segment of the path is a name, an index or mixed. So it is
a field if and only if it is a path of the grammar and no keyword, unless it is a path in which a
segment is mixed. -/
theorem isField_iff_isPath (text : String) :
    (IsField text ↔ IsPath isLooseSegment text.toList ∧ isKeyword text = false) ∧
    ((IsField text ↔ IsPath isPathSegment text.toList ∧ isKeyword text = false) ↔
      ¬(IsPath isLooseSegment text.toList ∧ ∃ s ∈ pieces '.' text.toList, isMixed s)) := by
  refine ⟨isField_iff, ?_⟩
  rw [isField_iff, isPath_isPathSegment_iff]
  constructor
  · rintro hiff ⟨hpath, s, hs, hmixed⟩
    -- the path has a dot, so it is no keyword, and the grammar would have to allow the segment
    have hword := isKeyword_of_mem_dot (mem_dot_of_isMixed hpath hs hmixed)
    have hplain := (hiff.mp ⟨hpath, hword⟩).1.2 s hs
    rw [hplain] at hmixed
    cases hmixed
  · intro hnone
    refine and_congr_left fun _ => ⟨fun hpath => ⟨hpath, fun s hs => ?_⟩, And.left⟩
    exact Bool.eq_false_iff.mpr fun hmixed => hnone ⟨hpath, s, hs, hmixed⟩

/-- The text `a.0b` is a field, though the grammar has no segment `0b`. -/
theorem mixed_segment_isField :
    ¬(IsField "a.0b" ↔ IsPath isPathSegment "a.0b".toList ∧ isKeyword "a.0b" = false) := by
  have hpieces : pieces '.' "a.0b".toList = [['a'], ['0', 'b']] := by decide +kernel
  have hfield : IsField "a.0b" := isField_iff.mpr
    ⟨⟨['a'], [['0', 'b']], by decide +kernel, by decide, by decide⟩, by decide +kernel⟩
  rw [isPath_iff (fun s => all_isNameChar_of_isPathSegment) hpieces]
  intro hiff
  exact absurd ((hiff.mp hfield).1.2 ['0', 'b'] List.mem_cons_self) (by decide)

end Token

end QueryFilter
