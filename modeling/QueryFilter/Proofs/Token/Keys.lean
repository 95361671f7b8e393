import QueryFilter.Token.Scan
import QueryFilter.Proofs.Outcome
import QueryFilter.Proofs.Query.FieldPath

/-!
# Field names that a text can spell

A filter tells its operators from its fields by their keys: those of operators start with a dollar
sign. A *field key* is a path of segments, none of them empty and none starting with a dollar sign,
so neither it nor any of its segments can be taken for an operator. Every field token of a text is a
field key, whatever the text is.

The tokens of a text come from single reads, and the last of them is the end of input. So it is
enough to see what one read can give.

## Main definitions

* `Token.isFieldKey` — the keys that are no operators

## Main results

* `Token.read_cases` — the ways to read one token
* `Token.exists_eq_append_of_ofText` — the end of input is the last token and no other
* `Token.isFieldKey_of_mem_ofText` — every field token is a field key
-/

namespace QueryFilter

namespace Token

open Text

/-! ### One token -/

/-- The ways to read one token: an operator or punctuation, a string, a number, or a name. -/
theorem read_cases {position : Nat} {c : Char} {cs : List Char} {kind : TokenKind} {next : Cursor}
    (h : read position c cs = .ok (kind, next)) :
    readSymbol? position (c :: cs) = some (kind, next) ∨
      (isQuote c ∧ ∃ text, readString position c (position + 1) cs = .ok (text, next) ∧
        kind = .string (String.ofList text)) ∨
      ((isDigit c || (c = '-' && cs.head?.any isDigit)) ∧
        readNumber position (c :: cs) = .ok (kind, next)) ∨
      (isNameStart c ∧ readName position (c :: cs) = .ok (kind, next)) := by
  rw [read] at h
  split at h
  · rename_i hs
    cases h
    exact .inl hs
  · split at h
    · rename_i hquote
      obtain ⟨found, hs, heq⟩ := Except.map_eq_ok_iff.mp h
      cases heq
      exact .inr (.inl ⟨hquote, found.1, hs, rfl⟩)
    · split at h
      · rename_i hdigit
        exact .inr (.inr (.inl ⟨hdigit, h⟩))
      · split at h
        · rename_i hname
          exact .inr (.inr (.inr ⟨hname, h⟩))
        · cases h

/-- A symbol is one of the table. -/
theorem mem_symbols_of_readSymbol? {position : Nat} {cs : List Char} {kind : TokenKind}
    {next : Cursor} (h : readSymbol? position cs = some (kind, next)) :
    kind ∈ symbols.map Prod.snd := by
  obtain ⟨⟨spelling, kind'⟩, hmem, hk⟩ := List.exists_of_findSome?_eq_some h
  obtain ⟨rest, -, heq⟩ := Option.map_eq_some_iff.mp hk
  cases heq
  exact List.mem_map_of_mem hmem

theorem number_of_readNumber {position : Nat} {cs : List Char} {kind : TokenKind} {next : Cursor}
    (h : readNumber position cs = .ok (kind, next)) : ∃ n, kind = .number n := by
  rw [readNumber] at h
  simp only at h
  split at h
  · cases h
    exact ⟨_, rfl⟩
  · cases h

/-- A name is a typed literal, or a keyword or field as spelled. -/
theorem readName_cases {position : Nat} {cs : List Char} {kind : TokenKind} {next : Cursor}
    (h : readName position cs = .ok (kind, next)) :
    (∃ marker raw, kind = .marker marker raw) ∨
      ∃ name rest, readPath position cs = .ok (name, rest) ∧ kind = ofName name := by
  rw [readName] at h
  split at h
  · cases h
  · rename_i name rest hpath
    simp only at h
    split at h
    · rename_i marker here argument _ _
      obtain ⟨found, -, heq⟩ := Except.map_eq_ok_iff.mp h
      cases heq
      exact .inl ⟨marker, found.1, rfl⟩
    · cases h
      exact .inr ⟨name, rest, hpath, rfl⟩

/-- A name without parentheses is a keyword or a field. -/
theorem ofName_cases (name : List Char) :
    ofName name ∈ [TokenKind.and, .or, .not, .member, .present, .boolean true, .boolean false,
        .null] ∨ ofName name = .field (String.ofList name) := by
  simp only [ofName]
  repeat' split
  all_goals simp

/-- What is read is never the end of input. -/
theorem kind_ne_endOfInput_of_read {position : Nat} {c : Char} {cs : List Char} {kind : TokenKind}
    {next : Cursor} (h : read position c cs = .ok (kind, next)) : kind ≠ .endOfInput := by
  rintro rfl
  rcases read_cases h with hs | ⟨-, text, -, hs⟩ | ⟨-, hn⟩ | ⟨-, hn⟩
  · exact absurd (mem_symbols_of_readSymbol? hs) (by decide)
  · cases hs
  · obtain ⟨n, hn⟩ := number_of_readNumber hn
    cases hn
  · rcases readName_cases hn with ⟨marker, raw, hm⟩ | ⟨name, rest, -, hk⟩
    · cases hm
    · rcases ofName_cases name with hkey | hfield
      · rw [← hk] at hkey
        exact absurd hkey (by decide)
      · rw [← hk] at hfield
        cases hfield

/-! ### All tokens -/

/-- The tokens of a scan without an error are read one by one, and end with the end of input. -/
theorem exists_eq_append_of_scanFrom {cursor : Cursor} (h : (scanFrom cursor).fault = none) :
    ∃ front stop, (scanFrom cursor).tokens = front ++ [⟨.endOfInput, .point stop⟩] ∧
      ∀ t ∈ front, ∃ position c cs next, read position c cs = .ok (t.kind, next) := by
  fun_induction scanFrom cursor with
  | case1 cursor start _ => exact ⟨[], start, rfl, fun t ht => absurd ht List.not_mem_nil⟩
  | case2 => cases h
  | case3 cursor start c body _ kind next hread _ ih =>
    obtain ⟨front, stop, heq, hfront⟩ := ih h
    refine ⟨⟨kind, start, next.position⟩ :: front, stop, ?_, ?_⟩
    · rw [Scan.cons, heq, List.cons_append]
    · exact List.forall_mem_cons.mpr ⟨⟨start, c, body, next, hread⟩, hfront⟩

theorem exists_eq_append_of_ofText {source : String} {tokens : List Token}
    (h : ofText source = .ok tokens) :
    ∃ front stop, tokens = front ++ [⟨.endOfInput, .point stop⟩] ∧
      ∀ t ∈ front, ∃ position c cs next, read position c cs = .ok (t.kind, next) := by
  rw [ofText] at h
  split at h
  · rename_i hfault
    cases h
    exact exists_eq_append_of_scanFrom hfault
  · cases h

theorem exists_front_of_ofText {source : String} {tokens : List Token}
    (h : ofText source = .ok tokens) :
    ∃ front stop, tokens = front ++ [⟨.endOfInput, .point stop⟩] ∧
      ∀ t ∈ front, t.kind ≠ .endOfInput := by
  obtain ⟨front, stop, htokens, hfront⟩ := exists_eq_append_of_ofText h
  refine ⟨front, stop, htokens, fun t ht => ?_⟩
  obtain ⟨position, c, cs, next, hread⟩ := hfront t ht
  exact kind_ne_endOfInput_of_read hread

/-! ### Keys -/

/-- A segment of a field key: it is not empty, has only letters, digits and the signs `_`, `$` and
`-` of ASCII in it, and does not start with `$`. -/
def isSegment (cs : List Char) : Bool :=
  !cs.isEmpty && cs.all (fun c => c.isAlphanum || c = '_' || c = '$' || c = '-') &&
    cs.head? ≠ some '$'

/-- A key that names a field: segments with dots between them. -/
def isFieldKey (key : String) : Bool := (pieces '.' key.toList).all isSegment

theorem ne_dot_of_isNameChar {c : Char} (h : isNameChar c) : c ≠ '.' := by
  rintro rfl
  exact absurd h (by decide)

theorem isNameChar_of_isSegmentStart {c : Char} (h : isSegmentStart c) : isNameChar c := by
  rcases Bool.or_eq_true_iff.mp h with hname | hdigit
  · exact isNameChar_of_isNameStart hname
  · have hnum : c.isDigit := by
      simpa [isDigit, Char.isDigit, Char.le_def] using hdigit
    simp [isNameChar, Char.isAlphanum, hnum]

/-- A path that is read starts with the first character of the text, if that can be in a name. -/
theorem head?_of_readPath {position : Nat} {c : Char} {cs path rest : List Char}
    (hc : isNameChar c) (h : readPath position (c :: cs) = .ok (path, rest)) :
    path.head? = some c := by
  rw [readPath, if_neg (by simp [ne_dot_of_isNameChar hc]), if_pos (by simp [hc])] at h
  obtain ⟨found, -, heq⟩ := Except.map_eq_ok_iff.mp h
  cases heq
  rfl

theorem isSegment_iff {cs : List Char} :
    isSegment cs ↔ cs.all isNameChar ∧ ∃ c, cs.head? = some c ∧ c ≠ '$' := by
  cases cs with
  | nil => simp [isSegment]
  | cons c cs => simp [isSegment, isNameChar]

theorem isSegmentStart_ne_dollar {c : Char} (h : isSegmentStart c) : c ≠ '$' := by
  rintro rfl
  exact absurd h (by decide)

/-- The first piece of a text that does not start with the separator starts like the text. -/
theorem head?_pieces {c separator : Char} {cs first : List Char} {more : List (List Char)}
    (hc : c ≠ separator) (hcs : cs.head? = some c) (h : pieces separator cs = first :: more) :
    first.head? = some c := by
  obtain ⟨rest, rfl⟩ := List.head?_eq_some_iff.mp hcs
  rw [pieces, if_neg hc] at h
  split at h
  · cases h
    rfl
  · cases h
    rfl

/-- A path that is read has only characters of names between its dots, and a segment after every
dot. -/
theorem pieces_of_readPath {position : Nat} {cs path rest : List Char}
    (h : readPath position cs = .ok (path, rest)) :
    ∃ first more, pieces '.' path = first :: more ∧ first.all isNameChar ∧
      ∀ p ∈ more, isSegment p := by
  fun_induction readPath position cs generalizing path rest with
  | case1 =>
    cases h
    exact ⟨[], [], rfl, rfl, fun p hp => absurd hp List.not_mem_nil⟩
  | case2 => cases h
  | case3 position c cs hdot hname ih =>
    obtain ⟨⟨path', rest'⟩, hp, heq⟩ := Except.map_eq_ok_iff.mp h
    cases heq
    obtain ⟨first, more, hpieces, hfirst, hmore⟩ := ih hp
    by_cases hc : c = '.'
    · -- what follows the dot starts a segment, so the first piece of the rest is one
      have hstart : cs.head?.any isSegmentStart := by simpa [hc] using hdot
      obtain ⟨d, hd, hsegment⟩ := Option.any_eq_true _ _ |>.mp hstart
      obtain ⟨ds, rfl⟩ := List.head?_eq_some_iff.mp hd
      have hchar := isNameChar_of_isSegmentStart hsegment
      have hhead := head?_pieces (ne_dot_of_isNameChar hchar) (head?_of_readPath hchar hp) hpieces
      refine ⟨[], first :: more, by rw [pieces, if_pos hc, hpieces], rfl, ?_⟩
      exact List.forall_mem_cons.mpr
        ⟨isSegment_iff.mpr ⟨hfirst, d, hhead, isSegmentStart_ne_dollar hsegment⟩, hmore⟩
    · have hchar : isNameChar c := by simpa [hc] using hname
      refine ⟨c :: first, more, by rw [pieces, if_neg hc, hpieces], ?_, hmore⟩
      rw [List.all_cons, hchar, hfirst]
      rfl
  | case4 =>
    cases h
    exact ⟨[], [], rfl, rfl, fun p hp => absurd hp List.not_mem_nil⟩

/-- A path that is read where a name can start is a field key. -/
theorem isFieldKey_of_readPath {position : Nat} {c : Char} {cs path rest : List Char}
    (hc : isNameStart c) (h : readPath position (c :: cs) = .ok (path, rest)) :
    isFieldKey (String.ofList path) := by
  obtain ⟨first, more, hpieces, hfirst, hmore⟩ := pieces_of_readPath h
  have hchar := isNameChar_of_isNameStart hc
  have hhead := head?_pieces (ne_dot_of_isNameChar hchar) (head?_of_readPath hchar h) hpieces
  have hdollar : c ≠ '$' := isSegmentStart_ne_dollar (by simp [isSegmentStart, hc])
  rw [isFieldKey, String.toList_ofList, hpieces, List.all_cons, Bool.and_eq_true, List.all_eq_true]
  exact ⟨isSegment_iff.mpr ⟨hfirst, c, hhead, hdollar⟩, hmore⟩

/-- A field is a path that starts like a name. -/
theorem exists_readPath_of_read_field {position : Nat} {c : Char} {cs : List Char} {key : String}
    {next : Cursor} (h : read position c cs = .ok (.field key, next)) :
    isNameStart c ∧ ∃ name rest, readPath position (c :: cs) = .ok (name, rest) ∧
      ofName name = .field key := by
  rcases read_cases h with hs | ⟨-, text, -, hs⟩ | ⟨-, hn⟩ | ⟨hc, hn⟩
  · have hmem := mem_symbols_of_readSymbol? hs
    simp [symbols] at hmem
  · cases hs
  · obtain ⟨n, hn⟩ := number_of_readNumber hn
    cases hn
  · rcases readName_cases hn with ⟨marker, raw, hm⟩ | ⟨name, rest, hpath, hk⟩
    · cases hm
    · exact ⟨hc, name, rest, hpath, hk.symm⟩

/-- **No text spells the name of an operator.** Every field token of a text is a field key. -/
theorem isFieldKey_of_mem_ofText {source key : String} {tokens : List Token} {t : Token}
    (h : ofText source = .ok tokens) (ht : t ∈ tokens) (hkind : t.kind = .field key) :
    isFieldKey key := by
  obtain ⟨front, stop, rfl, hfront⟩ := exists_eq_append_of_ofText h
  rcases List.mem_append.mp ht with ht | ht
  · obtain ⟨position, c, cs, next, hread⟩ := hfront t ht
    rw [hkind] at hread
    obtain ⟨hc, name, rest, hpath, hkey⟩ := exists_readPath_of_read_field hread
    rcases ofName_cases name with hword | hfield
    · rw [hkey] at hword
      simp at hword
    · rw [hfield] at hkey
      cases hkey
      exact isFieldKey_of_readPath hc hpath
  · rw [List.mem_singleton] at ht
    subst ht
    cases hkind

/-- A field key does not start with a dollar sign, as the keys of operators and of typed literals
do. -/
theorem head?_ne_dollar_of_isFieldKey {key : String} (h : isFieldKey key) :
    key.toList.head? ≠ some '$' := by
  intro hdollar
  obtain ⟨first, more, hpieces⟩ := List.exists_cons_of_ne_nil (pieces_ne_nil '.' key.toList)
  rw [isFieldKey, hpieces, List.all_cons, Bool.and_eq_true, isSegment_iff] at h
  obtain ⟨⟨-, c, hc, hne⟩, -⟩ := h
  have hfirst := head?_pieces (by decide) hdollar hpieces
  exact hne (Option.some.inj (hc.symm.trans hfirst))

end Token

end QueryFilter
