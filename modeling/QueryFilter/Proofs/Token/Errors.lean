import QueryFilter.Proofs.Token.Composition

/-!
# Lexical errors stand in the text

An error of a scan is about a part of the text, and its span covers exactly that part: the character
that starts no token, the backslash and the character after it, the numeral, the name of the typed
literal, the opening quote. A span is made of an offset and the bytes of what the error names, and
not of two offsets of the scan; so it has to be shown that the text does have that part at that
offset.

A reader finds an error in the text that it was given, or it was told of the text by its caller: an
open string has its quote before the text that is left of it, and a malformed typed literal its
name. These two are left to the caller.

## Main definitions

* `LexError.Shows` — the text that an error is about
* `LexError.IsAbout` — an error whose span covers such a text

## Main results

* `Token.isAbout_of_read` — errors of one token
* `Token.isAbout_of_ofText` — errors of a text
-/

namespace QueryFilter

open Text

namespace LexError

/-- The texts that an error is about. -/
def Shows : LexError → List Char → Prop
  | unexpectedChar _ ch, text => text = [ch]
  | unterminatedString _, text => text = ['"'] ∨ text = ['\'']
  | invalidEscape _ ch, text => text = ['\\', ch]
  | invalidNumber _ number, text => text = number.toList
  | malformedMarker _ name, text =>
    text = name.toList ∧ String.ofList (text.map Char.toLower) ∈ Token.markerNames

/-- An error that is about a part of a text which starts at an offset. -/
def IsAbout (e : LexError) (position : Nat) (cs : List Char) : Prop :=
  ∃ text, Token.Covers position cs e.span text ∧ e.Shows text

/-- What is about the rest of a text is about the text. -/
theorem IsAbout.append_left {e : LexError} {position : Nat} {cs : List Char} (front : List Char)
    (h : e.IsAbout (position + utf8Length front) cs) : e.IsAbout position (front ++ cs) := by
  obtain ⟨text, hcovers, hshows⟩ := h
  exact ⟨text, hcovers.append_left, hshows⟩

/-- What is about the text after blanks is about the text with them. -/
theorem IsAbout.of_skipBlanks {e : LexError} {cursor next : Cursor}
    (hskip : cursor.skipBlanks = next) (h : e.IsAbout next.position next.rest) :
    e.IsAbout cursor.position cursor.rest := by
  obtain ⟨-, blanks, -, hrest, hposition⟩ := Cursor.skipBlanks_eq_iff.mp hskip
  rw [hposition] at h
  rw [hrest]
  exact h.append_left blanks

/-- An error is about the text in front if it shows that text, in as many bytes. -/
theorem isAbout_front {e : LexError} {position : Nat} (text rest : List Char) (h : e.Shows text)
    (hspan : e.span = ⟨position, position + utf8Length text⟩) :
    e.IsAbout position (text ++ rest) :=
  ⟨text, ⟨[], rest, rfl, hspan⟩, h⟩

end LexError

namespace Token

/-! ### Strings and numbers -/

/-- The error of a string is that it does not end, or it is about an escape in it. -/
theorem isAbout_of_readString {start position : Nat} {quote : Char} {cs : List Char} {e : LexError}
    (h : readString start quote position cs = .error e) :
    e = .unterminatedString start ∨ e.IsAbout position cs := by
  fun_induction readString start quote position cs with
  | case1 =>
    cases h
    exact .inl rfl
  | case2 => cases h
  | case3 position cs d n more he _ hquote ih =>
    obtain ⟨escape, rfl, hlength, -⟩ := escape?_local he
    have hbytes : position + 1 + n = position + utf8Length ('\\' :: escape) := by
      rw [utf8Length_cons, hlength, Nat.add_assoc]
      rfl
    have hmore := ih (Except.map_eq_error_iff.mp h)
    rw [hbytes] at hmore
    exact hmore.imp_right (·.append_left ('\\' :: escape))
  | case4 position cs he hquote =>
    cases h
    cases cs with
    | nil => exact .inl rfl
    | cons c cs =>
      refine .inr (LexError.isAbout_front ['\\', c] cs rfl ?_)
      rw [badEscape, LexError.span, Nat.add_assoc]
      rfl
  | case5 position c cs hquote hslash ih =>
    exact (ih (Except.map_eq_error_iff.mp h)).imp_right (·.append_left [c])

theorem utf8Length_of_isQuote {quote : Char} (h : isQuote quote) : utf8Length [quote] = 1 := by
  rw [utf8Length_cons, utf8Size_of_isQuote h]
  rfl

/-- The error of a quoted text is about it, if the opening quote is taken along. -/
theorem isAbout_of_quoted {position : Nat} {quote : Char} {cs : List Char} {e : LexError}
    (hquote : isQuote quote) (h : readString position quote (position + 1) cs = .error e) :
    e.IsAbout position (quote :: cs) := by
  rw [← utf8Length_of_isQuote hquote] at h
  rcases isAbout_of_readString h with rfl | habout
  · have hshows : (LexError.unterminatedString position).Shows [quote] := by
      rcases Bool.or_eq_true_iff.mp hquote with hq | hq
      · exact .inl (by rw [of_decide_eq_true hq])
      · exact .inr (by rw [of_decide_eq_true hq])
    refine LexError.isAbout_front [quote] cs hshows ?_
    rw [utf8Length_of_isQuote hquote]
    rfl
  · exact habout.append_left [quote]

/-- The error of a number is about all the text that was taken for it. -/
theorem isAbout_of_readNumber {position : Nat} {cs : List Char} {e : LexError}
    (h : readNumber position cs = .error e) : e.IsAbout position cs := by
  rw [readNumber] at h
  simp only at h
  split at h
  · cases h
  · cases h
    have habout : (LexError.invalidNumber position (String.ofList (Numeral.take cs).1.text)).IsAbout
        position ((Numeral.take cs).1.text ++ (Numeral.take cs).2) := by
      refine LexError.isAbout_front _ _ String.toList_ofList.symm ?_
      rw [LexError.span, byteLength, String.toList_ofList]
    rwa [Numeral.text_take_append] at habout

/-! ### Names -/

/-- The characters of names are ASCII. -/
theorem utf8Size_of_isNameChar {c : Char} (h : isNameChar c) : c.utf8Size = 1 := by
  have hascii : c.toNat ≤ 127 := by
    simp only [isNameChar, Bool.or_eq_true, decide_eq_true_eq] at h
    rcases h with ((halphanum | rfl) | rfl) | rfl
    · exact Nat.le_trans (toNat_of_isAlphanum halphanum).2 (by decide)
    · decide
    · decide
    · decide
  exact Char.utf8Size_eq_one_iff.mpr (UInt32.le_iff_toNat_le.mpr hascii)

/-- The error of a path is about the character after a dot, or about a dot at the end. -/
theorem isAbout_of_readPath {position : Nat} {cs : List Char} {e : LexError}
    (h : readPath position cs = .error e) : e.IsAbout position cs := by
  fun_induction readPath position cs with
  | case1 => cases h
  | case2 position c cs hdot =>
    cases h
    obtain rfl : c = '.' := of_decide_eq_true (Bool.and_eq_true_iff.mp hdot).1
    cases cs with
    | nil => exact LexError.isAbout_front ['.'] [] rfl rfl
    | cons d cs => exact LexError.IsAbout.append_left ['.'] (LexError.isAbout_front [d] cs rfl rfl)
  | case3 position c cs hdot hname ih =>
    have hbytes : utf8Length [c] = 1 := by
      rcases Bool.or_eq_true_iff.mp hname with hc | hc
      · rw [of_decide_eq_true hc]
        rfl
      · rw [utf8Length_cons, utf8Size_of_isNameChar hc]
        rfl
    have hmore := ih (Except.map_eq_error_iff.mp h)
    rw [← hbytes] at hmore
    exact hmore.append_left [c]
  | case4 => cases h

/-- The error of an argument is the one for malformed literals, or it is about the string in it. -/
theorem isAbout_of_readArgument {malformed e : LexError} {cursor : Cursor}
    (h : readArgument malformed cursor = .error e) :
    e = malformed ∨ e.IsAbout cursor.position cursor.rest := by
  rw [readArgument] at h
  split at h
  · cases h
    exact .inl rfl
  · rename_i quote body hbody
    split at h
    · rename_i hquote
      split at h
      · rename_i hstring
        cases h
        have habout := isAbout_of_quoted hquote hstring
        rw [← hbody] at habout
        exact .inr (LexError.IsAbout.of_skipBlanks rfl habout)
      · split at h
        · cases h
        · cases h
          exact .inl rfl
    · cases h
      exact .inl rfl

/-- The error of a name is about the path, about the name of a typed literal, or about a string in
its argument. -/
theorem isAbout_of_readName {position : Nat} {cs : List Char} {e : LexError}
    (h : readName position cs = .error e) : e.IsAbout position cs := by
  rw [readName] at h
  split at h
  · rename_i hpath
    cases h
    exact isAbout_of_readPath hpath
  · rename_i name left hpath
    rw [eq_append_of_readPath hpath]
    simp only at h
    split at h
    · rename_i marker here argument hmarker hskip
      rcases isAbout_of_readArgument (Except.map_eq_error_iff.mp h) with rfl | habout
      · have hname : (markerKind? name).isSome := by rw [hmarker]; rfl
        refine LexError.isAbout_front name left ?_ ?_
        · exact ⟨String.toList_ofList.symm, isSome_markerKind?_iff.mp hname⟩
        rw [LexError.span, byteLength, String.toList_ofList]
      · have hparen : e.IsAbout here ('(' :: argument) := habout.append_left ['(']
        exact (LexError.IsAbout.of_skipBlanks hskip hparen).append_left name
    · cases h

/-! ### One token, and all of them -/

/-- **One token.** Its error is about a part of the text that is left. -/
theorem isAbout_of_read {position : Nat} {c : Char} {cs : List Char} {e : LexError}
    (h : read position c cs = .error e) : e.IsAbout position (c :: cs) := by
  rw [read] at h
  split at h
  · cases h
  · split at h
    · rename_i hquote
      exact isAbout_of_quoted hquote (Except.map_eq_error_iff.mp h)
    · split at h
      · exact isAbout_of_readNumber h
      · split at h
        · exact isAbout_of_readName h
        · cases h
          exact LexError.isAbout_front [c] cs rfl rfl

/-- **All tokens.** An error of a scan is about a part of the text. -/
theorem isAbout_of_scanFrom {cursor : Cursor} {e : LexError}
    (h : (scanFrom cursor).fault = some e) : e.IsAbout cursor.position cursor.rest := by
  fun_induction scanFrom cursor with
  | case1 => cases h
  | case2 cursor start c cs hstart e' hread =>
    cases h
    exact LexError.IsAbout.of_skipBlanks hstart (isAbout_of_read hread)
  | case3 cursor start c cs hstart kind next hread _ ih =>
    obtain ⟨body, rfl, hnext, -⟩ := read_local hread
    have habout := ih h
    rw [hnext] at habout
    exact LexError.IsAbout.of_skipBlanks hstart (habout.append_left (c :: body))

theorem isAbout_of_ofText {source : String} {e : LexError} (h : ofText source = .error e) :
    e.IsAbout 0 source.toList := by
  rw [ofText] at h
  split at h
  · cases h
  · rename_i e' hfault
    cases h
    exact isAbout_of_scanFrom hfault

end Token

end QueryFilter
