import QueryFilter.Proofs.Json.Inversion
import QueryFilter.Proofs.Json.RoundTrip
import QueryFilter.Proofs.Token.Tiling

/-!
# JSON strings are strings of queries

A program that puts the words of a user into a query has to quote them. It can do so with any writer
of JSON: a text that the JSON reader takes for one string is one token of the query language, with
the same content. In particular no content ends the string early, whatever quotes and backslashes it
has.

The two readers are written differently. The scanner knows one escape more and lets control
characters stand for themselves, so the converse fails. Where the JSON reader looks at a code unit
first and at the second half of a pair later, the scanner takes both at once, and the two look for
lone surrogates in different orders. What is shown is that every escape of JSON is one of the
scanner, with the same character and the same text after it; over whole strings, the two then go
side by side.

## Main results

* `Token.escape?_of_readEscape` — one escape
* `Token.readString_of_readChars` — the content of a string
* `Json.exists_of_read_string` — what the JSON reader takes for a string stands in quotes
* `Token.ofText_of_json_string` — a JSON string is one token
-/

namespace QueryFilter

open Text

/-! ### Escapes -/

namespace Json

theorem hex4?_of_readUnit {cs rest : List Char} {unit : Nat}
    (h : readUnit cs = .ok (unit, rest)) : hex4? cs = some (unit, rest) := by
  rw [readUnit] at h
  split at h
  · cases h
  · split at h
    · rename_i found hfound
      cases h
      exact hfound
    · cases h

theorem eq_cons_of_readPairMark {mark : Char} {cs rest : List Char}
    (h : readPairMark mark cs = .ok rest) : cs = mark :: rest := by
  rw [readPairMark.eq_def] at h
  split at h
  · cases h
  · split at h
    · rename_i hmark
      cases h
      rw [hmark]
    · cases h

/-- A code unit that is read is a character by itself, or the first half of a pair that is written
out. -/
theorem readPair_cases {unit : Nat} {cs rest : List Char} {c : Char}
    (h : readPair unit cs = .ok (c, rest)) :
    (isHighSurrogate unit = false ∧ isLowSurrogate unit = false ∧ c = Char.ofNat unit ∧ cs = rest) ∨
      isHighSurrogate unit ∧ ∃ more low, cs = '\\' :: 'u' :: more ∧ hex4? more = some (low, rest) ∧
        isLowSurrogate low ∧ c = Char.ofNat (pairCode unit low) := by
  rw [readPair] at h
  split at h
  · cases h
  · rename_i hlone
    split at h
    · rename_i hhigh
      right
      split at h
      · cases h
      · rename_i first hfirst
        split at h
        · cases h
        · rename_i second hsecond
          split at h
          · cases h
          · rename_i low left hlow
            split at h
            · rename_i hpair
              rw [Except.ok.injEq, Prod.mk.injEq] at h
              obtain ⟨rfl, rfl⟩ := h
              obtain rfl := eq_cons_of_readPairMark hsecond
              exact ⟨hhigh, second, low, eq_cons_of_readPairMark hfirst, hex4?_of_readUnit hlow,
                hpair, rfl⟩
            · cases h
    · rename_i hhigh
      rw [Except.ok.injEq, Prod.mk.injEq] at h
      exact .inl ⟨Bool.eq_false_iff.mpr hhigh, Bool.eq_false_iff.mpr hlone, h.1.symm, h.2⟩

end Json

namespace Token

/-- Every escape of one letter in JSON is one of the scanner. -/
theorem simpleEscape?_of_json {c d : Char} (h : Json.simpleEscape? c = some d) :
    simpleEscape? c = some d := by
  have hmem : c ∈ ['"', '\\', '/', 'b', 'f', 'n', 'r', 't'] := by
    by_contra hmem
    simp only [List.mem_cons, List.not_mem_nil, or_false, not_or] at hmem
    simp [Json.simpleEscape?, hmem] at h
  have hsame : ['"', '\\', '/', 'b', 'f', 'n', 'r', 't'].all fun c =>
      simpleEscape? c = Json.simpleEscape? c := by decide
  rw [of_decide_eq_true (List.all_eq_true.mp hsame c hmem), h]

theorem unicodeEscape?_of_readPair {cs rest after : List Char} {unit : Nat} {c : Char}
    (hunit : hex4? cs = some (unit, rest)) (h : Json.readPair unit rest = .ok (c, after)) :
    ∃ n, unicodeEscape? cs = some (c, n, after) := by
  rw [unicodeEscape?, hunit]
  rcases Json.readPair_cases h with ⟨hhigh, hlow, rfl, rfl⟩ |
    ⟨hhigh, more, low, hrest, hmore, hlow, hc⟩
  · exact ⟨4, by simp [hhigh, hlow]⟩
  · exact ⟨10, by simp only [hrest, hhigh, if_true, hmore, hlow, hc]⟩

/-- **An escape of JSON** is one of the scanner, with the same character and the same text after it.
-/
theorem escape?_of_readEscape {cs rest : List Char} {c : Char}
    (h : Json.readEscape cs = .ok (c, rest)) : ∃ n, escape? cs = some (c, n, rest) := by
  rw [Json.readEscape.eq_def] at h
  split at h
  · cases h
  · rename_i first cs
    rw [escape?]
    split at h
    · rename_i hu
      split at h
      · cases h
      · rename_i unit left hunit
        obtain ⟨n, hn⟩ := unicodeEscape?_of_readPair (Json.hex4?_of_readUnit hunit) h
        exact ⟨n + 1, by rw [if_pos hu, hn]; rfl⟩
    · rename_i hu
      split at h
      · rename_i d hd
        cases h
        exact ⟨1, by rw [if_neg hu, simpleEscape?_of_json hd]; rfl⟩
      · cases h

/-! ### Strings -/

/-- **The content of a JSON string** is that of a string of the query language. -/
theorem readString_of_readChars {cs text rest : List Char}
    (h : Json.readChars cs = .ok (text, rest)) (start position : Nat) :
    ∃ next, readString start '"' position cs = .ok (text, next) ∧ next.rest = rest := by
  fun_induction Json.readChars cs generalizing text rest position with
  | case1 => cases h
  | case2 rest' =>
    cases h
    exact ⟨_, by rw [readString, if_pos rfl], rfl⟩
  | case3 cs e he => cases h
  | case4 cs d more he _ _ ih =>
    obtain ⟨⟨text', after⟩, hmore, heq⟩ := Except.map_eq_ok_iff.mp h
    cases heq
    obtain ⟨n, hescape⟩ := escape?_of_readEscape he
    obtain ⟨next, hnext, hrest⟩ := ih hmore (position + 1 + n)
    refine ⟨next, ?_, hrest⟩
    rw [readString_escape (by decide) hescape, hnext]
    rfl
  | case5 => cases h
  | case6 c cs hquote hslash hcontrol ih =>
    obtain ⟨⟨text', after⟩, hmore, heq⟩ := Except.map_eq_ok_iff.mp h
    cases heq
    obtain ⟨next, hnext, hrest⟩ := ih hmore (position + c.utf8Size)
    refine ⟨next, ?_, hrest⟩
    rw [readString, if_neg hquote, if_neg hslash, hnext]
    rfl

end Token

/-! ### Texts that are a JSON string -/

namespace Json

/-- The content of a value that is a string. -/
def text? : Json → Option String
  | string text => some text
  | _ => none

theorem eq_string_of_text? {j : Json} {text : String} (h : j.text? = some text) :
    j = .string text := by
  cases j with
  | string found => rw [Option.some.inj h]
  | _ => cases h

/-- What is read as a string stands behind a quote. -/
theorem exists_of_readWith_string {inner : Option (List Char → Result Json)} {cs rest : List Char}
    {text : String} (h : readWith inner cs = .ok (.string text, rest)) :
    ∃ body, skipSpace cs = '"' :: body ∧ readString body = .ok (text, rest) := by
  rcases readWith_cases h with hnull | ⟨b, hb⟩ | ⟨body, text', hcs, hbody, htext⟩ |
    ⟨negative, body, hnumber⟩ | ⟨items, hitems⟩ | ⟨entries, hentries⟩
  · cases hnull
  · cases hb
  · cases htext
    exact ⟨body, hcs, hbody⟩
  · rcases readNumber_cases hnumber with ⟨x, hx⟩ | ⟨n, -, hn⟩
    · cases hx
    · rw [integerOf] at hn
      split_ifs at hn
  · cases hitems
  · cases hentries

/-- **A text that is a JSON string** with nothing around it is a quote and a content that is read to
the end. -/
theorem exists_of_read_string {cs : List Char} {text : String} (h : read cs = .ok (.string text))
    (hfirst : ∀ c ∈ cs.head?, isSpace c = false) (hlast : ∀ c ∈ cs.getLast?, isSpace c = false) :
    ∃ body chars, cs = '"' :: body ∧ readChars body = .ok (chars, []) ∧
      text = String.ofList chars := by
  obtain ⟨rest, hvalue, hspaces⟩ := exists_of_finish h
  obtain ⟨inner, hinner⟩ := exists_readWith maxDepth
  rw [hinner] at hvalue
  obtain ⟨body, hbody, hstring⟩ := exists_of_readWith_string hvalue
  obtain ⟨⟨chars, rest'⟩, hchars, heq⟩ := Except.map_eq_ok_iff.mp hstring
  cases heq
  have hcs : cs = '"' :: body := by
    cases cs with
    | nil => cases hbody
    | cons c more => rwa [skipSpace_of_not_isSpace (hfirst c rfl)] at hbody
  have hrest : rest = [] := by
    -- the blanks that are left would end the text
    by_contra hne
    obtain ⟨next, hnext, rfl⟩ := Token.readString_of_readChars hchars 0 0
    obtain ⟨front, hfront⟩ := Token.suffix_of_readString hnext
    have hmem := List.getLast_mem hne
    have hend : cs.getLast? = some (next.rest.getLast hne) := by
      rw [hcs, ← hfront, ← List.cons_append, List.getLast?_append_of_ne_nil _ hne,
        List.getLast?_eq_some_getLast hne]
    exact Bool.false_ne_true ((hlast _ hend).symm.trans (hspaces _ hmem))
  exact ⟨body, chars, hcs, hrest ▸ hchars, rfl⟩

end Json

namespace Token

/-- A text that is a JSON string, with nothing around it, is one string. -/
theorem standsAlone_of_read_string {cs : List Char} {text : String}
    (h : Json.read cs = .ok (.string text)) (hfirst : ∀ c ∈ cs.head?, Json.isSpace c = false)
    (hlast : ∀ c ∈ cs.getLast?, Json.isSpace c = false) : StandsAlone (.string text) cs := by
  obtain ⟨body, chars, rfl, hchars, rfl⟩ := Json.exists_of_read_string h hfirst hlast
  obtain ⟨next, hnext, hrest⟩ := readString_of_readChars hchars 0 1
  have hread : read 0 '"' body = .ok (.string (String.ofList chars), next) := by
    rw [read_of_isQuote (by decide), hnext]
    rfl
  obtain ⟨body', hbody, -, halone⟩ := standsAlone_of_read (by decide) hread
  rw [hrest, List.append_nil] at hbody
  rwa [hbody]

/-- **JSON strings are strings of queries.** A text that is a JSON string, with nothing around it,
is one token with the same content from its start to its end. So is what a writer of JSON makes of
any string, whatever it has in it. -/
theorem ofText_of_json_string :
    (∀ source text : String, Json.read source.toList = .ok (.string text) →
      (∀ c ∈ source.toList.head?, Json.isSpace c = false) →
      (∀ c ∈ source.toList.getLast?, Json.isSpace c = false) →
      ofText source = .ok [⟨.string text, ⟨0, byteLength source⟩⟩,
        ⟨.endOfInput, .point (byteLength source)⟩]) ∧
    ∀ text : String, ofText (Json.string text).compact =
      .ok [⟨.string text, ⟨0, byteLength (Json.string text).compact⟩⟩,
        ⟨.endOfInput, .point (byteLength (Json.string text).compact)⟩] := by
  constructor
  · intro source text h hfirst hlast
    have halone := standsAlone_of_read_string h hfirst hlast
    rwa [StandsAlone, String.ofList_toList] at halone
  · intro text
    have hread : Json.read (Json.string text).write = .ok (.string text) :=
      (Json.read_write rfl).1 (Nat.zero_le _)
    have hwrite : (Json.string text).write =
        '"' :: text.toList.flatMap Json.writeChar ++ ['"'] := rfl
    have hfirst : ∀ c ∈ (Json.string text).write.head?, Json.isSpace c = false := by
      rintro c ⟨⟩
      decide
    have hlast : ∀ c ∈ (Json.string text).write.getLast?, Json.isSpace c = false := by
      rw [hwrite, List.getLast?_concat]
      rintro c ⟨⟩
      decide
    have halone := standsAlone_of_read_string hread hfirst hlast
    have hbytes : byteLength (Json.string text).compact = utf8Length (Json.string text).write := by
      rw [byteLength, Json.compact, String.toList_ofList]
    rwa [hbytes]

/-- A character beyond the first plane written as two escapes, an escaped slash, the other quote as
it is, a character of two bytes, and at the end an escaped quote behind an escaped backslash. -/
theorem ofText_of_escaped_json_string :
    let source := "\"\\ud83d\\ude00\\/'é'\\\\\\\"\""
    let text := "😀/'é'\\\""
    Json.read source.toList = .ok (.string text) ∧
      ofText source = .ok [⟨.string text, ⟨0, 24⟩⟩, ⟨.endOfInput, .point 24⟩] := by
  intro source text
  obtain ⟨j, hj, htext⟩ := Except.exists_of_toOption_any (x := Json.read source.toList)
    (p := fun j => j.text? = some text) (by decide +kernel)
  obtain rfl := Json.eq_string_of_text? (of_decide_eq_true htext)
  have hfirst : source.toList.head? = some '"' := by decide +kernel
  have hlast : source.toList.getLast? = some '"' := by decide +kernel
  have hbytes : byteLength source = 24 := by decide +kernel
  have hspace : ∀ c ∈ some '"', Json.isSpace c = false := by
    rintro c ⟨⟩
    decide
  have hquoted := ofText_of_json_string.1 source _ hj (hfirst ▸ hspace) (hlast ▸ hspace)
  rw [hbytes] at hquoted
  exact ⟨hj, hquoted⟩

end Token

end QueryFilter
