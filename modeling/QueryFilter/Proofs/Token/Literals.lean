import Mathlib.Data.List.TakeWhile
import QueryFilter.Proofs.Text.Slices
import QueryFilter.Proofs.Token.Keys

/-!
# Where strings and numbers end

A string ends with its closing quote, whatever follows it. A number ends before the first character
that does not go on with it, so it is read alike in front of two texts that start with the same
character, or of which the second starts with one that is in no token before it.

The lemmas about the readers have one form. They say at once that what is taken is a part of the
text, that the offset moves by its bytes, and that it is taken in front of another rest too.

## Main definitions

* `Token.endsToken`, `Token.EndsAlike` — what ends a token, and two texts that end the same tokens

## Main results

* `Cursor.skipBlanks_eq_iff` — the place after blanks
* `Token.readString_local` — strings are read by their own characters
* `Numeral.take_local`, `Token.readNumber_local` — so are numbers
-/

namespace QueryFilter

open Text

/-! ### What ends a token -/

namespace Token

/-- A character that cannot be in the token in front of it, whatever token that is. -/
def endsToken (c : Char) : Bool :=
  !(isNameChar c || c = '.' || c = '+' || c = '=' || c = '>')

/-- The second text ends a token that the first one ends: its first character is the same, or ends
every token. -/
def EndsAlike (rest rest' : List Char) : Prop :=
  rest'.head? = rest.head? ∨ ∀ c ∈ rest'.head?, endsToken c

theorem endsAlike_nil (rest : List Char) : EndsAlike rest [] :=
  .inr fun _ hc => absurd hc (Option.not_mem_none _)

theorem endsAlike_append_of_ne_nil {text : List Char} (h : text ≠ []) (rest rest' : List Char) :
    EndsAlike (text ++ rest) (text ++ rest') := by
  obtain ⟨c, text, rfl⟩ := List.exists_cons_of_ne_nil h
  exact .inl rfl

theorem EndsAlike.append {rest rest' : List Char} (h : EndsAlike rest rest') (text : List Char) :
    EndsAlike (text ++ rest) (text ++ rest') := by
  by_cases hnil : text = []
  · rwa [hnil]
  · exact endsAlike_append_of_ne_nil hnil rest rest'

theorem EndsAlike.of_append {text cs left rest : List Char} (h : EndsAlike left rest)
    (heq : text ++ left = cs) : EndsAlike cs (text ++ rest) := heq ▸ h.append text

/-- What is known of the next character is known in the other text too, if it holds of all
characters that end tokens. -/
theorem EndsAlike.forall_head? {rest rest' : List Char} {p : Char → Prop}
    (h : EndsAlike rest rest') (hrest : ∀ c ∈ rest.head?, p c) (hends : ∀ c, endsToken c → p c) :
    ∀ c ∈ rest'.head?, p c := by
  intro c hc
  rcases h with heq | hall
  · exact hrest c (heq ▸ hc)
  · exact hends c (hall c hc)

theorem EndsAlike.head?_ne {rest rest' : List Char} {c : Char} (h : EndsAlike rest rest')
    (hc : endsToken c = false) (hrest : rest.head? ≠ some c) : rest'.head? ≠ some c := by
  rcases h with heq | hall
  · rwa [heq]
  · intro hhead
    simp [hall c hhead] at hc

theorem not_isNameChar_of_endsToken {c : Char} (h : endsToken c) : isNameChar c = false := by
  simp only [endsToken, Bool.not_eq_true', Bool.or_eq_false_iff] at h
  exact h.1.1.1.1

theorem not_isDigit_of_endsToken {c : Char} (h : endsToken c) : isDigit c = false := by
  by_contra hdigit
  have hchar := isNameChar_of_isSegmentStart (c := c) (by simp_all [isSegmentStart])
  simp [not_isNameChar_of_endsToken h] at hchar

/-- The characters with a property in front of a text stay those of the front, if no character that
ends a token has the property. -/
theorem span_local {p : Char → Bool} (hp : ∀ c, endsToken c → p c = false) {cs rest : List Char}
    (h : EndsAlike (cs.dropWhile p) rest) :
    (cs.takeWhile p ++ rest).takeWhile p = cs.takeWhile p ∧
      (cs.takeWhile p ++ rest).dropWhile p = rest := by
  have hstop : ∀ c ∈ (cs.dropWhile p).head?, p c = false := by
    intro c hc
    have := List.head?_dropWhile_not p cs
    rw [hc] at this
    simpa using this
  exact span_append (fun c hc => List.mem_takeWhile_imp hc) (h.forall_head? hstop hp)

end Token

/-! ### Blanks -/

/-- The first character that is not blank stands after blanks only. -/
theorem Cursor.skipBlanks_eq_iff {cursor next : Cursor} :
    cursor.skipBlanks = next ↔ (∀ c ∈ next.rest.head?, isBlank c = false) ∧
      ∃ blanks, (∀ c ∈ blanks, isBlank c) ∧ cursor.rest = blanks ++ next.rest ∧
        next.position = cursor.position + utf8Length blanks := by
  constructor
  · rintro rfl
    refine ⟨fun c hc => ?_, cursor.rest.takeWhile isBlank, fun c hc => List.mem_takeWhile_imp hc,
      List.takeWhile_append_dropWhile.symm, rfl⟩
    have hfirst := List.head?_dropWhile_not isBlank cursor.rest
    rw [show (cursor.rest.dropWhile isBlank).head? = some c from hc] at hfirst
    simpa using hfirst
  · rintro ⟨hnext, blanks, hblanks, hrest, hposition⟩
    obtain ⟨htake, hdrop⟩ := span_append hblanks hnext
    rw [skipBlanks, Text.skipBlanks, hrest, htake, hdrop, ← hposition]

theorem Cursor.skipBlanks_append {blanks : List Char} (hblanks : ∀ c ∈ blanks, isBlank c) {c : Char}
    (hc : isBlank c = false) (position : Nat) (cs : List Char) :
    Cursor.skipBlanks ⟨position, blanks ++ c :: cs⟩ =
      ⟨position + utf8Length blanks, c :: cs⟩ := by
  refine skipBlanks_eq_iff.mpr ⟨fun d hd => ?_, blanks, hblanks, rfl, rfl⟩
  cases hd
  exact hc

/-! ### Strings -/

namespace Text

/-- Hexadecimal digits are ASCII. -/
theorem utf8Size_of_hexValue? {c : Char} {n : Nat} (h : hexValue? c = some n) :
    c.utf8Size = 1 := by
  rw [Char.utf8Size_eq_one_iff]
  simp only [hexValue?, Bool.and_eq_true, decide_eq_true_eq, Char.le_def] at h
  split at h
  · rename_i hrange
    exact UInt32.le_trans hrange.2 (by decide)
  · split at h
    · rename_i hrange
      exact UInt32.le_trans hrange.2 (by decide)
    · split at h
      · rename_i hrange
        exact UInt32.le_trans hrange.2 (by decide)
      · cases h

theorem hex4?_local {cs rest : List Char} {n : Nat} (h : hex4? cs = some (n, rest)) :
    ∃ body, cs = body ++ rest ∧ utf8Length body = 4 ∧
      ∀ rest', hex4? (body ++ rest') = some (n, rest') := by
  unfold hex4? at h
  split at h
  · rename_i a b c d _
    split at h
    · rename_i ha hb hc hd
      cases h
      refine ⟨[a, b, c, d], rfl, ?_, fun rest' => ?_⟩
      · simp [utf8Size_of_hexValue? ha, utf8Size_of_hexValue? hb, utf8Size_of_hexValue? hc,
          utf8Size_of_hexValue? hd]
      · simp [hex4?, ha, hb, hc, hd]
    · cases h
  · cases h

theorem unicodeEscape?_local {cs rest : List Char} {c : Char} {n : Nat}
    (h : unicodeEscape? cs = some (c, n, rest)) :
    ∃ body, cs = body ++ rest ∧ utf8Length body = n ∧
      ∀ rest', unicodeEscape? (body ++ rest') = some (c, n, rest') := by
  unfold unicodeEscape? at h
  split at h
  · cases h
  · rename_i unit left hunit
    obtain ⟨body, rfl, hlength, hbody⟩ := hex4?_local hunit
    split at h
    · rename_i hhigh
      split at h
      · rename_i more
        split at h
        · rename_i low left hlow
          obtain ⟨second, rfl, hsecond, hsecondLocal⟩ := hex4?_local hlow
          split at h
          · rename_i hpair
            simp only [Option.some.injEq, Prod.mk.injEq] at h
            obtain ⟨rfl, rfl, rfl⟩ := h
            refine ⟨body ++ '\\' :: 'u' :: second, by simp, ?_, fun rest' => ?_⟩
            · have hslash : utf8Length ('\\' :: 'u' :: second) = 2 + utf8Length second := by
                rw [utf8Length_cons, utf8Length_cons, ← Nat.add_assoc]
                rfl
              rw [utf8Length_append, hslash, hlength, hsecond]
            · rw [unicodeEscape?, List.append_assoc, hbody]
              simp only [hhigh, if_true, List.cons_append, hsecondLocal, hpair]
          · cases h
        · cases h
      · cases h
    · rename_i hhigh
      split at h
      · cases h
      · rename_i hlow
        simp only [Option.some.injEq, Prod.mk.injEq] at h
        obtain ⟨rfl, rfl, rfl⟩ := h
        refine ⟨body, rfl, hlength, fun rest' => ?_⟩
        rw [unicodeEscape?, hbody]
        simp only [hhigh, hlow, if_false, Bool.false_eq_true]

end Text

namespace Token

theorem utf8Size_of_isQuote {c : Char} (h : isQuote c) : c.utf8Size = 1 := by
  rcases Bool.or_eq_true_iff.mp h with hc | hc
  · rw [of_decide_eq_true hc]
    rfl
  · rw [of_decide_eq_true hc]
    rfl

/-- The character after a backslash is ASCII. -/
theorem utf8Size_of_simpleEscape? {c d : Char} (h : simpleEscape? c = some d) :
    c.utf8Size = 1 := by
  have hmem : c ∈ ['\\', '"', '\'', '/', 'n', 't', 'r', 'b', 'f'] := by
    by_contra hmem
    simp only [List.mem_cons, List.not_mem_nil, or_false, not_or] at hmem
    simp [simpleEscape?, hmem] at h
  have hascii : ['\\', '"', '\'', '/', 'n', 't', 'r', 'b', 'f'].all fun c => c.utf8Size = 1 := by
    decide
  exact of_decide_eq_true (List.all_eq_true.mp hascii c hmem)

theorem escape?_local {cs rest : List Char} {c : Char} {n : Nat}
    (h : escape? cs = some (c, n, rest)) :
    ∃ body, cs = body ++ rest ∧ utf8Length body = n ∧
      ∀ rest', escape? (body ++ rest') = some (c, n, rest') := by
  unfold escape? at h
  split at h
  · cases h
  · rename_i first cs
    split at h
    · rename_i hu
      obtain ⟨⟨d, k, more⟩, hunit, heq⟩ := Option.map_eq_some_iff.mp h
      cases heq
      obtain ⟨body, rfl, hlength, hbody⟩ := unicodeEscape?_local hunit
      refine ⟨first :: body, rfl, ?_, fun rest' => ?_⟩
      · rw [utf8Length_cons, hlength, hu, Nat.add_comm]
        rfl
      · rw [List.cons_append, escape?, if_pos hu, hbody]
        rfl
    · rename_i hu
      obtain ⟨d, hsimple, heq⟩ := Option.map_eq_some_iff.mp h
      cases heq
      refine ⟨[first], rfl, by simp [utf8Size_of_simpleEscape? hsimple], fun rest' => ?_⟩
      rw [List.cons_append, escape?, if_neg hu, hsimple]
      rfl

/-- A string goes on after an escape. -/
theorem readString_escape {start position n : Nat} {quote d : Char} {cs more : List Char}
    (hquote : '\\' ≠ quote) (h : escape? cs = some (d, n, more)) :
    readString start quote position ('\\' :: cs) =
      (readString start quote (position + 1 + n) more).map
        fun (text, next) => (d :: text, next) := by
  rw [readString, if_neg hquote, if_pos rfl]
  split
  · rename_i heq
    rw [h] at heq
    cases heq
    rfl
  · rename_i heq
    rw [h] at heq
    cases heq

/-- A string is read up to its closing quote, whatever follows that. -/
theorem readString_local {start position : Nat} {quote : Char} {cs text : List Char}
    {next : Cursor} (h : readString start quote position cs = .ok (text, next)) :
    ∃ body, cs = body ++ next.rest ∧ next.position = position + utf8Length body ∧
      ∀ start' position' rest, readString start' quote position' (body ++ rest) =
        .ok (text, ⟨position' + utf8Length body, rest⟩) := by
  fun_induction readString start quote position cs generalizing text next with
  | case1 => cases h
  | case2 position rest =>
    cases h
    refine ⟨[quote], rfl, rfl, fun start' position' rest => ?_⟩
    rw [List.cons_append, readString, if_pos rfl]
    rfl
  | case3 position cs d n more he _ hquote ih =>
    obtain ⟨⟨text', next'⟩, hmore, heq⟩ := Except.map_eq_ok_iff.mp h
    cases heq
    obtain ⟨body, rfl, hposition, hbody⟩ := ih hmore
    obtain ⟨escape, rfl, hlength, hescape⟩ := escape?_local he
    have hbytes : utf8Length ('\\' :: escape ++ body) = 1 + n + utf8Length body := by
      rw [utf8Length_append, utf8Length_cons, hlength]
      rfl
    refine ⟨'\\' :: escape ++ body, by simp, ?_, fun start' position' rest => ?_⟩
    · rw [hbytes, hposition]
      omega
    · rw [hbytes, List.append_assoc, List.cons_append, readString_escape hquote (hescape _), hbody]
      simp only [Except.map, Nat.add_assoc]
  | case4 => cases h
  | case5 position c cs hquote hslash ih =>
    obtain ⟨⟨text', next'⟩, hmore, heq⟩ := Except.map_eq_ok_iff.mp h
    cases heq
    obtain ⟨body, rfl, hposition, hbody⟩ := ih hmore
    refine ⟨c :: body, rfl, ?_, fun start' position' rest => ?_⟩
    · rw [hposition, utf8Length_cons, Nat.add_assoc]
    · rw [List.cons_append, readString, if_neg hquote, if_neg hslash, hbody, utf8Length_cons]
      simp only [Except.map, Nat.add_assoc]

end Token

/-! ### Numbers -/

namespace Numeral

open Token

theorem takeSign_of_head?_ne {cs : List Char} (h : cs.head? ≠ some '-') :
    takeSign cs = ([], cs) := by
  unfold takeSign
  split
  · exact absurd rfl h
  · rfl

theorem takeFraction_of_head?_ne {cs : List Char} (h : cs.head? ≠ some '.') :
    takeFraction cs = ([], cs) := by
  unfold takeFraction
  split
  · exact absurd rfl h
  · rfl

theorem takeExponentSign_of_head?_ne {cs : List Char} (hplus : cs.head? ≠ some '+')
    (hminus : cs.head? ≠ some '-') : takeExponentSign cs = ([], cs) := by
  cases cs with
  | nil => rfl
  | cons c cs => rw [takeExponentSign, if_neg (by simp_all)]

theorem takeExponent_of_head?_ne {cs : List Char} (hlower : cs.head? ≠ some 'e')
    (hupper : cs.head? ≠ some 'E') : takeExponent cs = ([], cs) := by
  cases cs with
  | nil => rfl
  | cons c cs => rw [takeExponent, if_neg (by simp_all)]

theorem takeSign_local {cs sign left rest : List Char} (h : takeSign cs = (sign, left))
    (hrest : EndsAlike left rest) : takeSign (sign ++ rest) = (sign, rest) := by
  by_cases hminus : cs.head? = some '-'
  · obtain ⟨cs, rfl⟩ := List.head?_eq_some_iff.mp hminus
    cases h
    rfl
  · rw [takeSign_of_head?_ne hminus] at h
    cases h
    exact takeSign_of_head?_ne (hrest.head?_ne (by decide) hminus)

theorem takeFraction_local {cs fraction left rest : List Char}
    (h : takeFraction cs = (fraction, left)) (hrest : EndsAlike left rest) :
    takeFraction (fraction ++ rest) = (fraction, rest) := by
  by_cases hpoint : cs.head? = some '.'
  · obtain ⟨cs, rfl⟩ := List.head?_eq_some_iff.mp hpoint
    cases h
    obtain ⟨htake, hdrop⟩ := span_local (fun c => not_isDigit_of_endsToken) hrest
    rw [List.cons_append, takeFraction, htake, hdrop]
  · rw [takeFraction_of_head?_ne hpoint] at h
    cases h
    exact takeFraction_of_head?_ne (hrest.head?_ne (by decide) hpoint)

theorem takeExponentSign_local {cs sign left rest : List Char}
    (h : takeExponentSign cs = (sign, left)) (hrest : EndsAlike left rest) :
    takeExponentSign (sign ++ rest) = (sign, rest) := by
  by_cases hsign : cs.head? = some '+' ∨ cs.head? = some '-'
  · obtain ⟨c, hc, hhead⟩ : ∃ c, (c = '+' || c = '-') ∧ cs.head? = some c := by
      rcases hsign with hplus | hminus
      · exact ⟨'+', rfl, hplus⟩
      · exact ⟨'-', rfl, hminus⟩
    obtain ⟨cs, rfl⟩ := List.head?_eq_some_iff.mp hhead
    rw [takeExponentSign, if_pos hc] at h
    cases h
    rw [List.cons_append, takeExponentSign, if_pos hc, List.nil_append]
  · obtain ⟨hplus, hminus⟩ := not_or.mp hsign
    rw [takeExponentSign_of_head?_ne hplus hminus] at h
    cases h
    exact takeExponentSign_of_head?_ne (hrest.head?_ne (by decide) hplus)
      (hrest.head?_ne (by decide) hminus)

theorem takeExponent_local {cs exponent left rest : List Char}
    (h : takeExponent cs = (exponent, left)) (hrest : EndsAlike left rest) :
    takeExponent (exponent ++ rest) = (exponent, rest) := by
  by_cases hmark : cs.head? = some 'e' ∨ cs.head? = some 'E'
  · obtain ⟨c, hc, hhead⟩ : ∃ c, (c = 'e' || c = 'E') ∧ cs.head? = some c := by
      rcases hmark with hlower | hupper
      · exact ⟨'e', rfl, hlower⟩
      · exact ⟨'E', rfl, hupper⟩
    obtain ⟨cs, rfl⟩ := List.head?_eq_some_iff.mp hhead
    rw [takeExponent, if_pos hc] at h
    cases hsign : takeExponentSign cs with
    | mk sign digits =>
      simp only [hsign] at h
      cases h
      obtain ⟨htake, hdrop⟩ := span_local (fun c => not_isDigit_of_endsToken) hrest
      have hdigits := hrest.of_append List.takeWhile_append_dropWhile
      rw [List.append_assoc, List.cons_append, takeExponent, if_pos hc,
        takeExponentSign_local hsign hdigits]
      simp only [htake, hdrop, List.cons_append]
  · obtain ⟨hlower, hupper⟩ := not_or.mp hmark
    rw [takeExponent_of_head?_ne hlower hupper] at h
    cases h
    exact takeExponent_of_head?_ne (hrest.head?_ne (by decide) hlower)
      (hrest.head?_ne (by decide) hupper)

/-- The parts before the exponent are taken by their own characters. -/
theorem front_local {cs sign left fraction left' rest : List Char}
    (hsign : takeSign cs = (sign, left))
    (hfraction : takeFraction (left.dropWhile isDigit) = (fraction, left'))
    (hrest : EndsAlike left' rest) :
    takeSign (sign ++ (left.takeWhile isDigit ++ (fraction ++ rest))) =
        (sign, left.takeWhile isDigit ++ (fraction ++ rest)) ∧
      (left.takeWhile isDigit ++ (fraction ++ rest)).takeWhile isDigit = left.takeWhile isDigit ∧
      (left.takeWhile isDigit ++ (fraction ++ rest)).dropWhile isDigit = fraction ++ rest ∧
      takeFraction (fraction ++ rest) = (fraction, rest) := by
  have hdigits : EndsAlike (left.dropWhile isDigit) (fraction ++ rest) :=
    hrest.of_append (by simpa only [hfraction] using takeFraction_append (left.dropWhile isDigit))
  have hwhole := hdigits.of_append List.takeWhile_append_dropWhile
  obtain ⟨htake, hdrop⟩ := span_local (fun c => not_isDigit_of_endsToken) hdigits
  exact ⟨takeSign_local hsign hwhole, htake, hdrop, takeFraction_local hfraction hrest⟩

/-- A numeral is taken from the front of a text by its own characters, whatever else ends it. -/
theorem take_local {cs rest : List Char} (h : EndsAlike (take cs).2 rest) :
    take ((take cs).1.text ++ rest) = ((take cs).1, rest) := by
  obtain ⟨sign, left₁, hsign⟩ : ∃ sign left, takeSign cs = (sign, left) := ⟨_, _, rfl⟩
  obtain ⟨fraction, left₂, hfraction⟩ :
      ∃ fraction left, takeFraction (left₁.dropWhile isDigit) = (fraction, left) := ⟨_, _, rfl⟩
  obtain ⟨exponent, left₃, hexponent⟩ :
      ∃ exponent left, takeExponent left₂ = (exponent, left) := ⟨_, _, rfl⟩
  have happend : exponent ++ left₃ = left₂ := by
    simpa only [hexponent] using takeExponent_append left₂
  -- the numeral ends with the first part that breaks off, or with its tail
  by_cases hpoint : fractionIsWhole fraction
  · by_cases hpower : exponentIsWhole exponent
    · have heq : take cs = (⟨sign, left₁.takeWhile isDigit, fraction, exponent,
          left₃.takeWhile isNameChar⟩, left₃.dropWhile isNameChar) := by
        simp only [take, hsign, hfraction, hexponent, hpoint, hpower, if_true]
      rw [heq] at h ⊢
      obtain ⟨htail, hrest⟩ := span_local (fun c => not_isNameChar_of_endsToken) h
      have hleft := h.of_append List.takeWhile_append_dropWhile
      obtain ⟨h₁, h₂, h₃, h₄⟩ := front_local hsign hfraction (hleft.of_append happend)
      simp only [text, List.append_assoc, take, h₁, h₂, h₃, h₄, takeExponent_local hexponent hleft,
        htail, hrest, hpoint, hpower, if_true]
    · have heq : take cs = (⟨sign, left₁.takeWhile isDigit, fraction, exponent, []⟩, left₃) := by
        simp only [take, hsign, hfraction, hexponent, hpoint, hpower, if_true, if_false,
          Bool.false_eq_true]
      rw [heq] at h ⊢
      obtain ⟨h₁, h₂, h₃, h₄⟩ := front_local hsign hfraction (h.of_append happend)
      simp only [text, List.append_assoc, List.nil_append, take, h₁, h₂, h₃, h₄,
        takeExponent_local hexponent h, hpoint, hpower, if_true, if_false, Bool.false_eq_true]
  · have heq : take cs = (⟨sign, left₁.takeWhile isDigit, fraction, [], []⟩, left₂) := by
      simp only [take, hsign, hfraction, hpoint, if_false, Bool.false_eq_true]
    rw [heq] at h ⊢
    obtain ⟨h₁, h₂, h₃, h₄⟩ := front_local hsign hfraction h
    simp only [text, List.append_assoc, List.nil_append, take, h₁, h₂, h₃, h₄, hpoint, if_false,
      Bool.false_eq_true]

/-- The digits after a minus sign are in the numeral. -/
theorem exists_text_take_minus {d : Char} (hd : isDigit d) (cs : List Char) :
    ∃ more, (take ('-' :: d :: cs)).1.text = '-' :: d :: more := by
  have hsign : takeSign ('-' :: d :: cs) = (['-'], d :: cs) := rfl
  simp only [text, sign_take, whole_take, hsign, List.takeWhile_cons_of_pos hd, List.cons_append,
    List.nil_append, List.cons.injEq, true_and]
  exact ⟨_, rfl⟩

end Numeral

namespace Token

/-- A number is read by its own characters. -/
theorem readNumber_local {position : Nat} {cs : List Char} {kind : TokenKind} {next : Cursor}
    (h : readNumber position cs = .ok (kind, next)) :
    next = ⟨position + utf8Length (Numeral.take cs).1.text, (Numeral.take cs).2⟩ ∧
      ∀ position' rest, EndsAlike next.rest rest →
        readNumber position' ((Numeral.take cs).1.text ++ rest) =
          .ok (kind, ⟨position' + utf8Length (Numeral.take cs).1.text, rest⟩) := by
  rw [readNumber] at h
  simp only at h
  split at h
  · rename_i n hn
    cases h
    refine ⟨rfl, fun position' rest hrest => ?_⟩
    simp only [readNumber, Numeral.take_local hrest, hn]
  · cases h

end Token

end QueryFilter
