import QueryFilter.Proofs.Token.Literals

/-!
# Tokens do not depend on what surrounds them

A token is read from the characters that it is made of and from at most one more, which tells where
it ends. So a token that is read somewhere is read in every other place in the same way, if what
follows it there ends it as well. The name of a typed literal is the exception: it is a field, or
the beginning of a literal, by the first character after it that is not blank.

## Main definitions

* `Token.opensParen` — what turns a name into that of a typed literal
* `Token.Replaces` — a text that can stand in for what follows a token

## Main results

* `Token.readArgument_eq_ok_iff`, `Token.readName_eq_ok_iff` — the forms of names and typed literals
* `Token.readName_local`, `Token.readSymbol?_local` — names and operators are read by their own
  characters
* `Token.read_local` — so is every token
-/

namespace QueryFilter

namespace Token

open Text

/-! ### Names and typed literals -/

/-- No path starts with a character that is in no name. -/
theorem readPath_of_head? {rest : List Char}
    (h : ∀ c ∈ rest.head?, (c = '.' || isNameChar c) = false) (position : Nat) :
    readPath position rest = .ok ([], rest) := by
  cases rest with
  | nil => rfl
  | cons c rest =>
    have hc := h c rfl
    have hdot := (Bool.or_eq_false_iff.mp hc).1
    rw [readPath, if_neg (by simp only [hdot, Bool.false_and, Bool.false_eq_true,
      not_false_eq_true]), if_neg (by simp only [hc, Bool.false_eq_true, not_false_eq_true])]

theorem not_isPathChar_of_endsToken {c : Char} (h : endsToken c) :
    (c = '.' || isNameChar c) = false := by
  simp only [endsToken, Bool.not_eq_true', Bool.or_eq_false_iff] at h
  rw [Bool.or_eq_false_iff]
  exact ⟨h.1.1.1.2, h.1.1.1.1⟩

/-- A path is read up to the first character that is in no name. -/
theorem readPath_local {position : Nat} {cs path left : List Char}
    (h : readPath position cs = .ok (path, left)) {rest : List Char} (hrest : EndsAlike left rest)
    (position' : Nat) : readPath position' (path ++ rest) = .ok (path, rest) := by
  fun_induction readPath position cs generalizing path left position' with
  | case1 =>
    cases h
    exact readPath_of_head? (hrest.forall_head? (fun c hc => absurd hc (Option.not_mem_none c))
      fun c => not_isPathChar_of_endsToken) position'
  | case2 => cases h
  | case3 position c cs hdot hname ih =>
    obtain ⟨⟨path', rest'⟩, hp, heq⟩ := Except.map_eq_ok_iff.mp h
    cases heq
    -- after a dot, the segment that follows belongs to the path
    have hsegment : ¬(c = '.' && !(path' ++ rest).head?.any isSegmentStart) := by
      intro hlone
      obtain ⟨hc, hlone⟩ := Bool.and_eq_true_iff.mp hlone
      have hstart : cs.head?.any isSegmentStart := by simpa [hc] using hdot
      obtain ⟨d, hd, hsegment⟩ := Option.any_eq_true _ _ |>.mp hstart
      obtain ⟨ds, rfl⟩ := List.head?_eq_some_iff.mp hd
      have hhead := head?_of_readPath (isNameChar_of_isSegmentStart hsegment) hp
      obtain ⟨tail, rfl⟩ := List.head?_eq_some_iff.mp hhead
      simp [hsegment] at hlone
    rw [List.cons_append, readPath, if_neg hsegment, if_pos hname, ih hp hrest]
    rfl
  | case4 position c cs hdot hname =>
    cases h
    refine readPath_of_head? (hrest.forall_head? (fun d hd => ?_)
      fun c => not_isPathChar_of_endsToken) position'
    cases hd
    exact Bool.eq_false_iff.mpr hname

/-- The argument of a typed literal: a string and a closing parenthesis, with blanks before each. -/
theorem readArgument_eq_ok_iff {malformed : LexError} {cursor next : Cursor} {raw : String} :
    readArgument malformed cursor = .ok (raw, next) ↔
      ∃ start quote body content closed here, cursor.skipBlanks = ⟨start, quote :: body⟩ ∧
        isQuote quote ∧ readString start quote (start + 1) body = .ok (content, closed) ∧
        closed.skipBlanks = ⟨here, ')' :: next.rest⟩ ∧ next.position = here + 1 ∧
        raw = String.ofList content := by
  constructor
  · intro h
    rw [readArgument] at h
    split at h
    · cases h
    · rename_i quote body hbody
      split at h
      · rename_i hquote
        split at h
        · cases h
        · rename_i content closed hstring
          split at h
          · rename_i here rest hclose
            cases h
            exact ⟨_, quote, body, content, closed, here, congrArg (Cursor.mk _) hbody, hquote,
              hstring, hclose, rfl, rfl⟩
          · cases h
      · cases h
  · obtain ⟨position, rest⟩ := next
    rintro ⟨start, quote, body, content, closed, here, hopen, hquote, hstring, hclose, rfl, rfl⟩
    simp only [readArgument, hopen, hquote, if_true, hstring, hclose]

/-- The argument of a typed literal is read up to its closing parenthesis, whatever follows that. -/
theorem readArgument_local {malformed : LexError} {cursor next : Cursor} {raw : String}
    (h : readArgument malformed cursor = .ok (raw, next)) :
    ∃ body, cursor.rest = body ++ next.rest ∧
      next.position = cursor.position + utf8Length body ∧
      ∀ malformed' position' rest, readArgument malformed' ⟨position', body ++ rest⟩ =
        .ok (raw, ⟨position' + utf8Length body, rest⟩) := by
  obtain ⟨start, quote, body, content, closed, here, hopen, hquote, hstring, hclose, hnext, rfl⟩ :=
    readArgument_eq_ok_iff.mp h
  obtain ⟨hfirst, blanks, hblanks, hrest, hstart⟩ := Cursor.skipBlanks_eq_iff.mp hopen
  obtain ⟨string, rfl, hclosed, hlocal⟩ := readString_local hstring
  obtain ⟨-, blanks', hblanks', hleft, hhere⟩ := Cursor.skipBlanks_eq_iff.mp hclose
  have hquoteBytes := utf8Size_of_isQuote hquote
  have hparenBytes : (')' : Char).utf8Size = 1 := rfl
  have hbytes : utf8Length (blanks ++ quote :: (string ++ (blanks' ++ [')']))) =
      utf8Length blanks + 1 + utf8Length string + utf8Length blanks' + 1 := by
    simp only [utf8Length_append, utf8Length_cons, utf8Length_nil, hquoteBytes, hparenBytes]
    omega
  refine ⟨blanks ++ quote :: (string ++ (blanks' ++ [')'])), ?_, ?_,
    fun malformed' position' rest => readArgument_eq_ok_iff.mpr ?_⟩
  · simp only [hrest, hleft, List.append_assoc, List.cons_append, List.nil_append]
  · simp only at hstart hhere
    omega
  · simp only [List.append_assoc, List.cons_append, List.nil_append]
    refine ⟨_, quote, _, content, _, _, Cursor.skipBlanks_append hblanks (hfirst quote rfl) _ _,
      hquote, hlocal _ _ _, Cursor.skipBlanks_append hblanks' (by decide) _ _, ?_, rfl⟩
    simp only [hbytes]
    omega

/-- Whether the first character that is not blank opens a parenthesis. -/
def opensParen (cs : List Char) : Bool := (Text.skipBlanks cs).head? = some '('

/-- An open parenthesis is where the blanks end. -/
theorem opensParen_iff (position : Nat) {cs : List Char} : opensParen cs ↔
    ∃ here argument, Cursor.skipBlanks ⟨position, cs⟩ = ⟨here, '(' :: argument⟩ := by
  simp [opensParen, List.head?_eq_some_iff, Cursor.skipBlanks]

/-- A text that can stand in for what follows a token: it ends the token in the same way, and does
not turn a field into the name of a typed literal. -/
structure Replaces (text rest rest' : List Char) : Prop where
  ends : EndsAlike rest rest'
  opens : (markerKind? text).isSome → opensParen rest' → opensParen rest

/-- A name is that of a typed literal if an argument can follow, and stands for itself otherwise. -/
theorem readName_eq_ok_iff {position : Nat} {cs : List Char} {kind : TokenKind} {next : Cursor} :
    readName position cs = .ok (kind, next) ↔
      ∃ name left, readPath position cs = .ok (name, left) ∧
        ((∃ marker raw here argument, markerKind? name = some marker ∧
            Cursor.skipBlanks ⟨position + utf8Length name, left⟩ = ⟨here, '(' :: argument⟩ ∧
            readArgument (.malformedMarker position (String.ofList name)) ⟨here + 1, argument⟩ =
              .ok (raw, next) ∧ kind = .marker marker raw) ∨
          (((markerKind? name).isSome → opensParen left = false) ∧ kind = ofName name ∧
            next = ⟨position + utf8Length name, left⟩)) := by
  constructor
  · intro h
    rw [readName] at h
    split at h
    · cases h
    · rename_i name left hpath
      refine ⟨name, left, hpath, ?_⟩
      simp only at h
      split at h
      · rename_i marker here argument hmarker hskip
        obtain ⟨⟨raw, next'⟩, hargument, heq⟩ := Except.map_eq_ok_iff.mp h
        cases heq
        exact .inl ⟨marker, raw, here, argument, hmarker, hskip, hargument, rfl⟩
      · rename_i hplain
        cases h
        refine .inr ⟨fun hmarker => Bool.eq_false_iff.mpr fun hopens => ?_, rfl, rfl⟩
        obtain ⟨marker, hmarker⟩ := Option.isSome_iff_exists.mp hmarker
        obtain ⟨here, argument, hskip⟩ :=
          (opensParen_iff (position + utf8Length name)).mp hopens
        exact hplain marker here argument hmarker hskip
  · rintro ⟨name, left, hpath, ⟨marker, raw, here, argument, hmarker, hskip, hargument, rfl⟩ |
      ⟨hplain, rfl, rfl⟩⟩
    · simp only [readName, hpath, hmarker, hskip, hargument, Except.map]
    · simp only [readName, hpath]
      split
      · rename_i marker here argument hmarker hskip
        have hopens := (opensParen_iff _).mpr ⟨here, argument, hskip⟩
        simp [hplain (by rw [hmarker]; rfl)] at hopens
      · rfl

/-- A name is read by its own characters, and as a field only where no parenthesis follows. -/
theorem readName_local {position : Nat} {cs : List Char} {kind : TokenKind} {next : Cursor}
    (h : readName position cs = .ok (kind, next)) :
    ∃ body, cs = body ++ next.rest ∧ next.position = position + utf8Length body ∧
      ∀ position' rest, Replaces body next.rest rest →
        readName position' (body ++ rest) = .ok (kind, ⟨position' + utf8Length body, rest⟩) := by
  obtain ⟨name, left, hpath, ⟨marker, raw, here, argument, hmarker, hskip, hargument, rfl⟩ |
    ⟨hplain, rfl, rfl⟩⟩ := readName_eq_ok_iff.mp h
  · obtain ⟨-, blanks, hblanks, hleft, hhere⟩ := Cursor.skipBlanks_eq_iff.mp hskip
    obtain ⟨body, hrest, hnext, hlocal⟩ := readArgument_local hargument
    simp only at hleft hhere hrest hnext
    have hparenBytes : ('(' : Char).utf8Size = 1 := rfl
    have hbytes : utf8Length (name ++ (blanks ++ '(' :: body)) =
        utf8Length name + utf8Length blanks + 1 + utf8Length body := by
      simp only [utf8Length_append, utf8Length_cons, hparenBytes]
      omega
    have hcs := eq_append_of_readPath hpath
    rw [hleft, hrest] at hcs
    refine ⟨name ++ (blanks ++ '(' :: body), by simp [hcs], by omega,
      fun position' rest _ => readName_eq_ok_iff.mpr ?_⟩
    -- what follows the name is part of the token, so the name ends there in front of any rest
    have hends : EndsAlike ((blanks ++ '(' :: body) ++ next.rest)
        ((blanks ++ '(' :: body) ++ rest) :=
      endsAlike_append_of_ne_nil (by simp) next.rest rest
    simp only [List.append_assoc, List.cons_append] at hends ⊢
    rw [← hrest, ← hleft] at hends
    refine ⟨name, _, readPath_local hpath hends position', .inl ⟨marker, raw, _, _, hmarker,
      Cursor.skipBlanks_append hblanks (by decide) _ _, ?_, rfl⟩⟩
    rw [hlocal, hbytes]
    simp only [Nat.add_assoc]
  · refine ⟨name, eq_append_of_readPath hpath, rfl, fun position' rest hrest => ?_⟩
    refine readName_eq_ok_iff.mpr
      ⟨name, rest, readPath_local hpath hrest.ends position', .inr ⟨fun hmarker => ?_, rfl, rfl⟩⟩
    refine Bool.eq_false_iff.mpr fun hopens => ?_
    have hleft := hrest.opens hmarker hopens
    rw [hplain hmarker] at hleft
    cases hleft

/-! ### Operators and punctuation -/

theorem after?_append (p cs : List Char) : after? p (p ++ cs) = some cs := by
  induction p with
  | nil => rfl
  | cons c p ih => rw [List.cons_append, after?, if_pos rfl, ih]

/-- A spelling that goes on after another one has one character more, and that ends no token. -/
theorem symbols_extend : ∀ s ∈ symbols, ∀ p ∈ symbols, s.1 <+: p.1 →
    (p.1.drop s.1.length).length ≤ 1 ∧ (p.1.drop s.1.length).all fun c => !endsToken c := by
  decide

/-- A spelling that is not at the front of a text is not there either after another rest. -/
theorem after?_local {p s : List Char × TokenKind} (hp : p ∈ symbols) (hs : s ∈ symbols)
    {left rest : List Char} (hrest : EndsAlike left rest) (h : after? p.1 (s.1 ++ left) = none) :
    after? p.1 (s.1 ++ rest) = none := by
  rw [Option.eq_none_iff_forall_ne_some]
  intro more hmore
  have heq := eq_append_of_after? hmore
  rcases List.append_eq_append_iff.mp heq with ⟨tail, htail, rfl⟩ | ⟨tail, htail, -⟩
  · obtain ⟨hlength, hends⟩ := symbols_extend s hs p hp ⟨tail, htail.symm⟩
    rw [htail, List.drop_left] at hlength hends
    cases tail with
    | nil =>
      rw [htail, List.append_nil, after?_append] at h
      cases h
    | cons c tail =>
      -- the character that goes on would be next in the first text as well
      obtain rfl : tail = [] := List.eq_nil_of_length_eq_zero (by simpa using hlength)
      have hc : endsToken c = false := by simpa using hends
      have hhead : left.head? = some c := by
        by_contra hne
        exact hrest.head?_ne hc hne rfl
      obtain ⟨left, rfl⟩ := List.head?_eq_some_iff.mp hhead
      rw [htail, show s.1 ++ c :: left = s.1 ++ [c] ++ left by simp, after?_append] at h
      cases h
  · rw [htail, List.append_assoc, after?_append] at h
    cases h

/-- An operator or punctuation is read by its own characters. -/
theorem readSymbol?_local {position : Nat} {cs : List Char} {kind : TokenKind} {next : Cursor}
    (h : readSymbol? position cs = some (kind, next)) :
    ∃ body, cs = body ++ next.rest ∧ next.position = position + utf8Length body ∧
      ∀ position' rest, EndsAlike next.rest rest →
        readSymbol? position' (body ++ rest) =
          some (kind, ⟨position' + utf8Length body, rest⟩) := by
  obtain ⟨before, s, after, htable, hs, hbefore⟩ := List.findSome?_eq_some_iff.mp h
  obtain ⟨left, hleft, heq⟩ := Option.map_eq_some_iff.mp hs
  cases heq
  obtain rfl := eq_append_of_after? hleft
  refine ⟨s.1, rfl, rfl, fun position' rest hrest => ?_⟩
  refine List.findSome?_eq_some_iff.mpr ⟨before, s, after, htable, ?_, fun p hp => ?_⟩
  · simp only [after?_append, Option.map_some]
  · have hmem : p ∈ symbols := by simp [htable, hp]
    have hmem' : s ∈ symbols := by simp [htable]
    rw [Option.map_eq_none_iff]
    exact after?_local hmem hmem' hrest (Option.map_eq_none_iff.mp (hbefore p hp))

/-- No operator or punctuation starts with a quote, a digit, a minus sign or a letter. -/
theorem readSymbol?_eq_none {c : Char}
    (h : isQuote c || isDigit c || c = '-' || isNameStart c) (position : Nat) (cs : List Char) :
    readSymbol? position (c :: cs) = none := by
  refine List.findSome?_eq_none_iff.mpr fun s hs => Option.map_eq_none_iff.mpr ?_
  have htable : ∀ s ∈ symbols,
      s.1.head?.any fun d => !(isQuote d || isDigit d || d = '-' || isNameStart d) := by decide
  obtain ⟨d, hd, hclass⟩ := Option.any_eq_true _ _ |>.mp (htable s hs)
  obtain ⟨spelling, hspelling⟩ := List.head?_eq_some_iff.mp hd
  rw [hspelling, after?, if_neg]
  rintro rfl
  rw [h] at hclass
  cases hclass

/-! ### One token -/

theorem read_of_isQuote {c : Char} (h : isQuote c) (position : Nat) (cs : List Char) :
    read position c cs = (readString position c (position + 1) cs).map
      fun (text, next) => (.string (String.ofList text), next) := by
  rw [read, readSymbol?_eq_none (by simp [h])]
  simp only [h, if_true]

theorem not_isQuote_of_isNameChar {c : Char} (h : isNameChar c) : isQuote c = false := by
  refine Bool.eq_false_iff.mpr fun hquote => ?_
  rcases Bool.or_eq_true_iff.mp hquote with hc | hc
  all_goals exact absurd (of_decide_eq_true hc ▸ h) (by decide)

theorem read_of_isDigit {c : Char} {cs : List Char}
    (h : isDigit c || (c = '-' && cs.head?.any isDigit)) (position : Nat) :
    read position c cs = readNumber position (c :: cs) := by
  have hfirst : isDigit c ∨ c = '-' := by
    rcases Bool.or_eq_true_iff.mp h with hdigit | hminus
    · exact .inl hdigit
    · exact .inr (of_decide_eq_true (Bool.and_eq_true_iff.mp hminus).1)
  have hchar : isNameChar c := by
    rcases hfirst with hdigit | rfl
    · exact isNameChar_of_isSegmentStart (by simp [isSegmentStart, hdigit])
    · decide
  rw [read, readSymbol?_eq_none (by rcases hfirst with hc | hc <;> simp [hc])]
  simp only [not_isQuote_of_isNameChar hchar, h, if_true, if_false, Bool.false_eq_true]

/-- A letter is no digit: it comes after the digits. -/
theorem not_isDigit_of_isNameStart {c : Char} (h : isNameStart c) : isDigit c = false := by
  refine Bool.eq_false_iff.mpr fun hdigit => ?_
  have hnine : c.val ≤ '9'.val := of_decide_eq_true (Bool.and_eq_true_iff.mp hdigit).2
  have hbeyond : ∀ d : UInt32, '9'.val < d → ¬d ≤ c.val := fun d hd hle =>
    absurd (UInt32.le_trans hle hnine) (UInt32.not_le.mpr hd)
  rcases Bool.or_eq_true_iff.mp h with halpha | hunderscore
  · rcases Bool.or_eq_true_iff.mp halpha with hupper | hlower
    · exact hbeyond 'A'.val (by decide) (of_decide_eq_true hupper).1
    · exact hbeyond 'a'.val (by decide) (of_decide_eq_true (Bool.and_eq_true_iff.mp hlower).1)
  · rw [of_decide_eq_true hunderscore] at hdigit
    exact absurd hdigit (by decide)

theorem read_of_isNameStart {c : Char} (h : isNameStart c) (position : Nat) (cs : List Char) :
    read position c cs = readName position (c :: cs) := by
  have hminus : c ≠ '-' := by
    rintro rfl
    exact absurd h (by decide)
  rw [read, readSymbol?_eq_none (by simp [h])]
  simp [not_isQuote_of_isNameChar (isNameChar_of_isNameStart h), not_isDigit_of_isNameStart h,
    hminus, h]

/-- What is taken from the front of a text starts with its first character, if that is not left. -/
theorem exists_eq_cons_of_suffix {c : Char} {cs taken left : List Char}
    (h : c :: cs = taken ++ left) (hleft : left <:+ cs) :
    ∃ body, taken = c :: body ∧ cs = body ++ left := by
  cases taken with
  | nil =>
    rw [List.nil_append] at h
    have hlength := hleft.length_le
    rw [← h, List.length_cons] at hlength
    omega
  | cons d body =>
    cases h
    exact ⟨body, rfl, rfl⟩

/-- **Tokens are local.** A token that is read in one place is read from the same characters in any
other place, in front of any text that can stand in for what followed it. -/
theorem read_local {position : Nat} {c : Char} {cs : List Char} {kind : TokenKind} {next : Cursor}
    (h : read position c cs = .ok (kind, next)) :
    ∃ body, cs = body ++ next.rest ∧ next.position = position + utf8Length (c :: body) ∧
      ∀ position' rest, Replaces (c :: body) next.rest rest →
        read position' c (body ++ rest) =
          .ok (kind, ⟨position' + utf8Length (c :: body), rest⟩) := by
  have hsuffix := suffix_of_read h
  rcases read_cases h with hsymbol | ⟨hquote, text, hstring, rfl⟩ | ⟨hdigit, hnumber⟩ |
    ⟨hstart, hname⟩
  · obtain ⟨taken, hcs, hnext, hlocal⟩ := readSymbol?_local hsymbol
    obtain ⟨body, rfl, hbody⟩ := exists_eq_cons_of_suffix hcs hsuffix
    refine ⟨body, hbody, hnext, fun position' rest hrest => ?_⟩
    have hread := hlocal position' rest hrest.ends
    rw [List.cons_append] at hread
    rw [read, hread]
  · obtain ⟨body, hcs, hnext, hlocal⟩ := readString_local hstring
    have hbytes : utf8Length (c :: body) = 1 + utf8Length body := by
      rw [utf8Length_cons, utf8Size_of_isQuote hquote]
    refine ⟨body, hcs, by omega, fun position' rest _ => ?_⟩
    rw [read_of_isQuote hquote, hlocal, hbytes, ← Nat.add_assoc]
    rfl
  · obtain ⟨rfl, hlocal⟩ := readNumber_local hnumber
    obtain ⟨body, htext, hcs⟩ :=
      exists_eq_cons_of_suffix (Numeral.text_take_append (c :: cs)).symm hsuffix
    rw [htext] at hlocal ⊢
    refine ⟨body, hcs, rfl, fun position' rest hrest => ?_⟩
    rw [read_of_isDigit, ← List.cons_append, hlocal position' rest hrest.ends]
    -- after a minus sign, the digit that follows belongs to the numeral
    rcases Bool.or_eq_true_iff.mp hdigit with hc | hminus
    · rw [hc, Bool.true_or]
    · obtain ⟨hc, hnext⟩ := Bool.and_eq_true_iff.mp hminus
      obtain ⟨d, hhead, hd⟩ := Option.any_eq_true _ _ |>.mp hnext
      obtain ⟨ds, rfl⟩ := List.head?_eq_some_iff.mp hhead
      obtain ⟨more, hmore⟩ := Numeral.exists_text_take_minus hd ds
      obtain rfl := of_decide_eq_true hc
      rw [hmore] at htext
      cases htext
      simp [hd]
  · obtain ⟨taken, hcs, hnext, hlocal⟩ := readName_local hname
    obtain ⟨body, rfl, hbody⟩ := exists_eq_cons_of_suffix hcs hsuffix
    refine ⟨body, hbody, hnext, fun position' rest hrest => ?_⟩
    rw [read_of_isNameStart hstart, ← List.cons_append, hlocal position' rest hrest]

end Token

end QueryFilter
