import QueryFilter.Proofs.Token.Translation

/-!
# Tokens of texts put together

Where two texts are put together, the tokens are those of the first text, followed by those of the
second one further on. Two things can go wrong at the seam. The second text may go on with the last
token of the first; it does not if it starts with a character that ends every token, such as a blank
or a parenthesis that closes. And if the last token of the first text is a field with the name of a
typed literal, a parenthesis that opens makes a typed literal of it, however many blanks stand
between them. These are the two conditions on a seam. An error in the second text is the error of
the whole, further on.

The scan of the whole text follows the scan of the first one token by token. Tokens are local, so it
reads the same ones; only the last of them is next to the seam.

## Main definitions

* `TokenKind.isMarkerName` — a field that a parenthesis would turn into a typed literal
* `Token.Seam` — a text that can follow some tokens
* `Token.Scan.prepend` — a scan with tokens in front
* `Token.Scans` — a text without errors and its tokens

## Main results

* `Token.scanFrom_append`, `Token.ofText_append` — the tokens of two texts put together
* `Token.Scans.keyword_append`, `Token.Scans.group_append` — texts after `AND`, `OR`, `NOT` and in
  parentheses
* `Token.ofText_append_blanks` — blanks between two texts separate their tokens
-/

namespace QueryFilter

open Text

/-- Whether a token is a field with the name of a typed literal, in any case. -/
def TokenKind.isMarkerName : TokenKind → Bool
  | field name => (Token.markerKind? name.toList).isSome
  | _ => false

namespace Token

/-! ### Names of typed literals -/

/-- A character whose lower case is a letter is a letter. -/
theorem isAlpha_of_isAlpha_toLower {c : Char} (h : c.toLower.isAlpha) : c.isAlpha := by
  by_cases hupper : c.isUpper
  · exact Bool.or_eq_true_iff.mpr (.inl hupper)
  · have hrange : ¬(c.val ≥ 'A'.val ∧ c.val ≤ 'Z'.val) := fun hc => hupper (decide_eq_true hc)
    have hlower : c.toLower = c := dif_neg hrange
    rwa [hlower] at h

/-- The names of typed literals in lower case. -/
def markerNames : List String := ["date", "isodate", "oid", "objectid"]

theorem isSome_markerKind?_iff {name : List Char} :
    (markerKind? name).isSome ↔ String.ofList (name.map Char.toLower) ∈ markerNames := by
  simp only [markerKind?, markerNames, List.mem_cons, List.not_mem_nil, or_false]
  split
  · rename_i hdate
    simpa using (Bool.or_eq_true_iff.mp hdate).imp of_decide_eq_true (Or.inl ∘ of_decide_eq_true)
  · split
    · rename_i hid
      simp_all
    · simp_all

theorem isAlpha_of_markerKind? {name : List Char} (h : (markerKind? name).isSome) :
    ∀ c ∈ name, c.isAlpha := by
  have hletters : ∀ lower ∈ markerNames, lower.toList.all Char.isAlpha := by decide
  intro c hc
  refine isAlpha_of_isAlpha_toLower
    (List.all_eq_true.mp (hletters _ (isSome_markerKind?_iff.mp h)) _ ?_)
  rw [String.toList_ofList]
  exact List.mem_map_of_mem hc

/-- The name of a typed literal is no keyword. -/
theorem ofName_of_markerKind? {name : List Char} (h : (markerKind? name).isSome) :
    ofName name = .field (String.ofList name) := by
  have hkeywords : ∀ lower ∈ markerNames,
      lower ∉ ["and", "or", "not", "in", "exists", "true", "false", "null"] := by decide
  have hlower := hkeywords _ (isSome_markerKind?_iff.mp h)
  simp only [List.mem_cons, List.not_mem_nil, or_false, not_or] at hlower
  simp only [ofName, hlower, if_false]

/-- A name without dots is read as a path. -/
theorem readPath_of_isNameChar {name : List Char} (h : ∀ c ∈ name, isNameChar c) (position : Nat) :
    readPath position name = .ok (name, []) := by
  induction name generalizing position with
  | nil => rfl
  | cons c name ih =>
    obtain ⟨hc, hname⟩ := List.forall_mem_cons.mp h
    rw [readPath, if_neg (by simp [ne_dot_of_isNameChar hc]), if_pos (by simp [hc]), ih hname]
    rfl

/-- A token whose text is the name of a typed literal is a field of that name. -/
theorem isMarkerName_of_read {position : Nat} {c : Char} {body : List Char} {kind : TokenKind}
    {next : Cursor} (hname : (markerKind? (c :: body)).isSome)
    (h : read position c body = .ok (kind, next)) : kind.isMarkerName := by
  have hletters := isAlpha_of_markerKind? hname
  have hchars : ∀ d ∈ c :: body, isNameChar d := by
    intro d hd
    exact isNameChar_of_isNameStart (by simp [isNameStart, hletters d hd])
  have hstart : isNameStart c := by simp [isNameStart, hletters c List.mem_cons_self]
  have hread : readName position (c :: body) = .ok (.field (String.ofList (c :: body)),
      ⟨position + utf8Length (c :: body), []⟩) :=
    readName_eq_ok_iff.mpr ⟨c :: body, [], readPath_of_isNameChar hchars position,
      .inr ⟨fun _ => rfl, (ofName_of_markerKind? hname).symm, rfl⟩⟩
  rw [read_of_isNameStart hstart, hread] at h
  cases h
  rw [TokenKind.isMarkerName, String.toList_ofList]
  exact hname

/-! ### Seams -/

/-- Letters and digits are ASCII characters after the blank ones. -/
theorem toNat_of_isAlphanum {c : Char} (h : c.isAlphanum) : 48 ≤ c.toNat ∧ c.toNat ≤ 122 := by
  have hrange : ∀ first last : Char, 48 ≤ first.toNat → last.toNat ≤ 122 →
      first.val ≤ c.val → c.val ≤ last.val → 48 ≤ c.toNat ∧ c.toNat ≤ 122 :=
    fun _ _ hlow hhigh hfirst hlast => ⟨Nat.le_trans hlow hfirst, Nat.le_trans hlast hhigh⟩
  rcases Bool.or_eq_true_iff.mp h with hletter | hdigit
  · rcases Bool.or_eq_true_iff.mp hletter with hupper | hlower
    · obtain ⟨hfirst, hlast⟩ := of_decide_eq_true hupper
      exact hrange 'A' 'Z' (by decide) (by decide) hfirst hlast
    · obtain ⟨hfirst, hlast⟩ := Bool.and_eq_true_iff.mp hlower
      exact hrange 'a' 'z' (by decide) (by decide) (of_decide_eq_true hfirst)
        (of_decide_eq_true hlast)
  · obtain ⟨hfirst, hlast⟩ := Bool.and_eq_true_iff.mp hdigit
    exact hrange '0' '9' (by decide) (by decide) (of_decide_eq_true hfirst)
      (of_decide_eq_true hlast)

/-- Blanks end every token. -/
theorem endsToken_of_isBlank {c : Char} (h : isBlank c) : endsToken c := by
  have hblank : c.toNat ≤ 32 ∨ 133 ≤ c.toNat := by
    simp only [isBlank, inRanges, blankRanges, List.any_cons, List.any_nil, Bool.or_eq_true,
      Bool.and_eq_true, decide_eq_true_eq, Bool.or_false] at h
    omega
  have hother : ∀ d : Char, 32 < d.toNat → d.toNat < 133 → c ≠ d := by
    rintro d hlow hhigh rfl
    omega
  have halphanum : c.isAlphanum = false := by
    refine Bool.eq_false_iff.mpr fun hchar => ?_
    have hrange := toNat_of_isAlphanum hchar
    omega
  simp [endsToken, isNameChar, halphanum, hother]

theorem opensParen_append_of_blank {blanks : List Char} (h : ∀ c ∈ blanks, isBlank c)
    (cs : List Char) : opensParen (blanks ++ cs) = opensParen cs := by
  rw [opensParen, Text.skipBlanks, List.dropWhile_append_of_pos h]
  rfl

/-- The first character that is not blank decides, if there is one. -/
theorem opensParen_append_of_not_blank {cs : List Char} (h : Text.skipBlanks cs ≠ [])
    (rest : List Char) : opensParen (cs ++ rest) = opensParen cs := by
  obtain ⟨c, more, hcs⟩ := List.exists_cons_of_ne_nil h
  rw [Text.skipBlanks] at hcs
  simp [opensParen, Text.skipBlanks, List.dropWhile_append, hcs]

/-- A text that can follow some tokens: it does not go on with the last of them, nor does it make a
typed literal of it. -/
structure Seam (tokens : List Token) (rest : List Char) : Prop where
  /-- The first character ends every token. -/
  ends : tokens ≠ [] → ∀ c ∈ rest.head?, endsToken c
  /-- After the name of a typed literal, no parenthesis is opened. -/
  opens : ∀ t ∈ tokens.getLast?, t.kind.isMarkerName → opensParen rest = false

theorem Seam.of_cons {token : Token} {tokens : List Token} {rest : List Char}
    (h : Seam (token :: tokens) rest) : Seam tokens rest := by
  refine ⟨fun _ => h.ends (List.cons_ne_nil _ _), fun t ht => h.opens t ?_⟩
  rw [List.getLast?_cons, Option.mem_def.mp ht]
  rfl

/-- Every text can follow no tokens. -/
theorem seam_nil (rest : List Char) : Seam [] rest :=
  ⟨fun h => absurd rfl h, fun _ ht => absurd ht (Option.not_mem_none _)⟩

/-! ### Scans -/

/-- A scan with tokens in front. -/
def Scan.prepend (tokens : List Token) (s : Scan) : Scan := { s with tokens := tokens ++ s.tokens }

/-- Blanks in front do not change a scan. -/
theorem scanFrom_congr {cursor cursor' : Cursor} (h : cursor.skipBlanks = cursor'.skipBlanks) :
    scanFrom cursor = scanFrom cursor' := by
  cases hstart : cursor'.skipBlanks with
  | mk start rest =>
    cases rest with
    | nil => rw [scanFrom_of_end hstart, scanFrom_of_end (h.trans hstart)]
    | cons c cs =>
      cases hread : read start c cs with
      | error e => rw [scanFrom_of_error hstart hread, scanFrom_of_error (h.trans hstart) hread]
      | ok found =>
        obtain ⟨kind, next⟩ := found
        rw [scanFrom_of_read hstart hread, scanFrom_of_read (h.trans hstart) hread]

/-- A text of blanks has no token but the end of input. -/
theorem tokens_eq_nil_of_end {cursor : Cursor} {stop : Nat} {tokens : List Token} {last : Token}
    (hend : cursor.skipBlanks = ⟨stop, []⟩) (h : scanFrom cursor = ⟨tokens ++ [last], none⟩) :
    tokens = [] := by
  rw [scanFrom_of_end hend, Scan.mk.injEq] at h
  rcases List.append_eq_singleton_iff.mp h.1.symm with ⟨hnil, -⟩ | ⟨-, hlast⟩
  · exact hnil
  · cases hlast

/-- A text that can follow a token and the tokens after it leaves the token as it is. -/
theorem Seam.replaces {token last : Token} {tokens : List Token} {text rest : List Char}
    {next : Cursor} (h : Seam (token :: tokens) rest)
    (hname : (markerKind? text).isSome → token.kind.isMarkerName)
    (hnext : scanFrom next = ⟨tokens ++ [last], none⟩) :
    Replaces text next.rest (next.rest ++ rest) := by
  constructor
  · by_cases hnil : next.rest = []
    · rw [hnil]
      exact .inr (h.ends (List.cons_ne_nil _ _))
    · obtain ⟨c, more, hmore⟩ := List.exists_cons_of_ne_nil hnil
      rw [hmore]
      exact .inl rfl
  · intro hmarker hopens
    by_cases hblank : Text.skipBlanks next.rest = []
    · -- only blanks are left, so the token is the last one and stands at the seam
      obtain rfl := tokens_eq_nil_of_end (congrArg (Cursor.mk _) hblank) hnext
      rw [opensParen_append_of_blank (List.dropWhile_eq_nil_iff.mp hblank),
        h.opens token rfl (hname hmarker)] at hopens
      cases hopens
    · rwa [opensParen_append_of_not_blank hblank] at hopens

/-- After a first token come those of the scan that follows it, which has the end of input at
least. -/
theorem eq_cons_of_scan {token last : Token} {tokens : List Token} {next : Cursor}
    (h : (scanFrom next).cons token = ⟨tokens ++ [last], none⟩) :
    ∃ more, tokens = token :: more ∧ scanFrom next = ⟨more ++ [last], none⟩ := by
  obtain ⟨htokens, hfault⟩ := Scan.mk.inj h
  obtain ⟨front, stop, hfront, -⟩ := exists_eq_append_of_scanFrom hfault
  cases tokens with
  | nil => simp [hfront] at htokens
  | cons t more =>
    rw [List.cons_append, List.cons_eq_cons] at htokens
    obtain ⟨rfl, hmore⟩ := htokens
    refine ⟨more, rfl, ?_⟩
    rw [← hmore, ← hfault]

/-- **A scan goes on behind a seam.** The tokens of a text stay its tokens in front of another text,
and then come those of the other one. -/
theorem scanFrom_append {cursor : Cursor} {tokens : List Token} {last : Token} {rest : List Char}
    (h : scanFrom cursor = ⟨tokens ++ [last], none⟩) (hrest : Seam tokens rest) :
    scanFrom ⟨cursor.position, cursor.rest ++ rest⟩ =
      (scanFrom ⟨cursor.position + utf8Length cursor.rest, rest⟩).prepend tokens := by
  fun_induction scanFrom cursor generalizing tokens with
  | case1 cursor stop hend =>
    obtain rfl := tokens_eq_nil_of_end hend ((scanFrom_of_end hend).trans h)
    obtain ⟨-, blanks, hblanks, hcursor, -⟩ := Cursor.skipBlanks_eq_iff.mp hend
    rw [List.append_nil] at hcursor
    rw [hcursor]
    refine scanFrom_congr ?_
    rw [Cursor.skipBlanks, Cursor.skipBlanks, Text.skipBlanks, Text.skipBlanks,
      List.dropWhile_append_of_pos hblanks, List.takeWhile_append_of_pos hblanks,
      utf8Length_append, Nat.add_assoc]
  | case2 => exact absurd (congrArg Scan.fault h) (by simp)
  | case3 cursor start c cs hstart kind next hread _ ih =>
    obtain ⟨more, rfl, hmore⟩ := eq_cons_of_scan h
    obtain ⟨hfirst, blanks, hblanks, hcursor, hblankBytes⟩ := Cursor.skipBlanks_eq_iff.mp hstart
    obtain ⟨body, rfl, hnext, hlocal⟩ := read_local hread
    have hreplaces : Replaces (c :: body) next.rest (next.rest ++ rest) := by
      refine hrest.replaces (fun hname => ?_) hmore
      have halone := hlocal 0 [] ⟨endsAlike_nil next.rest, fun _ hopens => absurd hopens (by decide)⟩
      rw [List.append_nil] at halone
      exact isMarkerName_of_read hname halone
    have hread' := hlocal start _ hreplaces
    rw [← hnext] at hread'
    have hstart' : Cursor.skipBlanks ⟨cursor.position, cursor.rest ++ rest⟩ =
        ⟨start, c :: (body ++ (next.rest ++ rest))⟩ := by
      simp only at hcursor hblankBytes
      rw [hcursor, hblankBytes, List.append_assoc, List.cons_append, List.append_assoc]
      exact Cursor.skipBlanks_append hblanks (hfirst c rfl) _ _
    have hbytes : next.position + utf8Length next.rest =
        cursor.position + utf8Length cursor.rest := by
      simp only at hcursor hblankBytes
      simp only [hnext, hcursor, hblankBytes, utf8Length_append, utf8Length_cons]
      omega
    rw [scanFrom_of_read hstart' hread', ih hmore hrest.of_cons, hbytes]
    rfl

/-! ### Texts -/

theorem ofText_eq_ok_iff {source : String} {tokens : List Token} :
    ofText source = .ok tokens ↔ scan source = ⟨tokens, none⟩ := by
  rw [ofText]
  obtain ⟨found, fault⟩ := scan source
  cases fault with
  | none => simp
  | some e => simp

/-- What a scan of a text gives, further on and with tokens in front. -/
theorem ofText_of_scan {source rest : String} {tokens : List Token} {n : Nat}
    (h : scan source = ((scan rest).shift n).prepend tokens) :
    ofText source = ((ofText rest).map fun more => tokens ++ more.map (Token.shift n)).mapError
      (.shift n) := by
  rw [ofText, ofText, h]
  obtain ⟨found, fault⟩ := scan rest
  cases fault with
  | none => rfl
  | some e => rfl

/-- **Texts put together.** The tokens of the first one come first, then those of the second one
further on; an error of the second one is the error of both, further on. -/
theorem ofText_append {source rest : String} {tokens : List Token} {last : Token}
    (h : ofText source = .ok (tokens ++ [last])) (hrest : Seam tokens rest.toList) :
    ofText (source ++ rest) =
      ((ofText rest).map fun more => tokens ++ more.map (Token.shift (byteLength source))).mapError
        (.shift (byteLength source)) := by
  refine ofText_of_scan ?_
  have hcursor : (⟨0 + byteLength source, rest.toList⟩ : Cursor) =
      Cursor.shift (byteLength source) ⟨0, rest.toList⟩ := rfl
  rw [scan, String.toList_append, scanFrom_append (ofText_eq_ok_iff.mp h) hrest]
  change Scan.prepend tokens (scanFrom ⟨0 + byteLength source, rest.toList⟩) = _
  rw [hcursor, scanFrom_shift]
  rfl

/-- Blanks in front move the tokens of a text, or its error. -/
theorem ofText_blanks_append {blanks : String} (h : ∀ c ∈ blanks.toList, isBlank c)
    (source : String) :
    ofText (blanks ++ source) =
      ((ofText source).map fun tokens => tokens.map (Token.shift (byteLength blanks))).mapError
        (.shift (byteLength blanks)) := by
  have hend : Cursor.skipBlanks ⟨0, blanks.toList⟩ = ⟨0 + byteLength blanks, []⟩ :=
    Cursor.skipBlanks_eq_iff.mpr ⟨fun _ hc => absurd hc (Option.not_mem_none _), blanks.toList, h,
      (List.append_nil _).symm, rfl⟩
  have hblanks : ofText blanks = .ok ([] ++ [⟨.endOfInput, .point (0 + byteLength blanks)⟩]) :=
    ofText_eq_ok_iff.mpr (scanFrom_of_end hend)
  exact ofText_append hblanks (seam_nil _)

/-! ### Texts without errors -/

/-- The tokens of a text, without the end of input. -/
def Scans (source : String) (tokens : List Token) : Prop :=
  ∃ stop, ofText source = .ok (tokens ++ [⟨.endOfInput, .point stop⟩])

namespace Scans

variable {source rest : String} {tokens more : List Token}

theorem kind_ne_endOfInput (h : Scans source tokens) : ∀ t ∈ tokens, t.kind ≠ .endOfInput := by
  obtain ⟨stop, htext⟩ := h
  obtain ⟨front, stop', htokens, hfront⟩ := exists_front_of_ofText htext
  obtain ⟨rfl, -⟩ := List.append_inj' htokens rfl
  exact hfront

theorem empty : Scans "" [] := ⟨0, ofText_eq_ok_iff.mpr (scanFrom_of_end rfl)⟩

theorem append (h : Scans source tokens) (hmore : Scans rest more)
    (hrest : Seam tokens rest.toList) :
    Scans (source ++ rest) (tokens ++ more.map (Token.shift (byteLength source))) := by
  obtain ⟨stop, htext⟩ := h
  obtain ⟨stop', hrest'⟩ := hmore
  refine ⟨stop' + byteLength source, ?_⟩
  rw [ofText_append htext hrest, hrest']
  simp only [Except.map, Except.mapError, List.map_append, List.append_assoc]
  rfl

/-- A space in front moves the tokens. -/
theorem space_append (h : Scans source tokens) :
    Scans (" " ++ source) (tokens.map (Token.shift 1)) := by
  obtain ⟨stop, htext⟩ := h
  refine ⟨stop + 1, ?_⟩
  rw [ofText_blanks_append (List.all_eq_true.mp (by decide)), htext]
  simp only [Except.map, Except.mapError, List.map_append]
  rfl

/-- A parenthesis in front is a token, whatever comes after it. -/
theorem paren_append (paren : Char) (kind : TokenKind)
    (hparen : (paren, kind) ∈ [('(', .leftParen), (')', .rightParen)]) (h : Scans source tokens) :
    Scans (String.singleton paren ++ source)
      (⟨kind, ⟨0, 1⟩⟩ :: tokens.map (Token.shift 1)) := by
  have hread : ∀ cs, read 0 paren cs = .ok (kind, ⟨1, cs⟩) ∧ isBlank paren = false := by
    intro cs
    simp only [List.mem_cons, List.not_mem_nil, or_false, Prod.mk.injEq] at hparen
    rcases hparen with ⟨rfl, rfl⟩ | ⟨rfl, rfl⟩
    · exact ⟨rfl, by decide⟩
    · exact ⟨rfl, by decide⟩
  obtain ⟨hparen, hblank⟩ := hread source.toList
  have hstart : Cursor.skipBlanks ⟨0, paren :: source.toList⟩ = ⟨0, paren :: source.toList⟩ := by
    simp [Cursor.skipBlanks, Text.skipBlanks, hblank]
  have hscan : scan (String.singleton paren ++ source) =
      ((scan source).shift 1).prepend [⟨kind, ⟨0, 1⟩⟩] := by
    rw [scan, String.toList_append, String.toList_singleton, List.singleton_append,
      scanFrom_of_read hstart hparen]
    exact congrArg (Scan.cons _) (scanFrom_shift 1 ⟨0, source.toList⟩)
  obtain ⟨stop, htext⟩ := h
  refine ⟨stop + 1, ?_⟩
  rw [ofText_of_scan hscan, htext]
  simp only [Except.map, Except.mapError, List.map_append]
  rfl

/-- A logical operator and a space in front are a token, whatever comes after them. -/
theorem keyword_append (word : String) (kind : TokenKind)
    (hword : (word, kind) ∈ [("AND", .and), ("OR", .or), ("NOT", .not)])
    (h : Scans source tokens) :
    Scans (word ++ " " ++ source)
      (⟨kind, ⟨0, byteLength word⟩⟩ :: tokens.map (Token.shift (byteLength word + 1))) := by
  have halone : ∀ w ∈ [("AND", TokenKind.and), ("OR", .or), ("NOT", .not)],
      w.2.isMarkerName = false ∧ (ofText w.1).toOption.any
        (· = [⟨w.2, ⟨0, byteLength w.1⟩⟩] ++ [⟨.endOfInput, .point (byteLength w.1)⟩]) := by
    decide +kernel
  obtain ⟨hname, htext⟩ := halone _ hword
  obtain ⟨found, hfound, heq⟩ := Except.exists_of_toOption_any htext
  rw [of_decide_eq_true heq] at hfound
  have hseam : Seam [⟨kind, ⟨0, byteLength word⟩⟩] (" " ++ source).toList := by
    rw [String.toList_append]
    constructor
    · rintro - c hc
      obtain rfl : ' ' = c := Option.some.inj hc
      decide
    · rintro t ht hmarker
      obtain rfl : ⟨kind, ⟨0, byteLength word⟩⟩ = t := Option.some.inj ht
      exact absurd hmarker (Bool.eq_false_iff.mp hname)
  have happend := append ⟨byteLength word, hfound⟩ h.space_append hseam
  rwa [List.map_map, comp_shift, ← String.append_assoc] at happend

/-- A text in parentheses has their two tokens around its own. -/
theorem group_append (h : Scans source tokens) (hmore : Scans rest more) :
    Scans ("(" ++ source ++ ")" ++ rest)
      (⟨.leftParen, ⟨0, 1⟩⟩ :: tokens.map (Token.shift 1) ++
        Token.shift (byteLength source + 1) ⟨.rightParen, ⟨0, 1⟩⟩ ::
          more.map (Token.shift (byteLength source + 2))) := by
  have hclose := paren_append ')' .rightParen (by decide) hmore
  have hseam : Seam tokens (String.singleton ')' ++ rest).toList := by
    rw [String.toList_append]
    exact ⟨fun _ c hc => Option.some.inj hc ▸ by decide, fun _ _ _ => rfl⟩
  have hopen := paren_append '(' .leftParen (by decide) (h.append hclose hseam)
  simp only [← String.append_assoc, List.map_append, List.map_cons, List.map_map, comp_shift,
    shift_shift, Nat.add_comm 1] at hopen
  exact hopen

end Scans

/-! ### Blanks between texts -/

/-- **Blanks separate tokens.** Two texts with blanks between them have the tokens of the first one
and then those of the second one, moved behind the first text and the blanks; if the second text has
an error, that is the error of both, moved in the same way. The exception is a field with the name of
a typed literal in front of a parenthesis. -/
theorem ofText_append_blanks (source blanks source' : String) (tokens : List Token) (span : Span)
    (hne : blanks ≠ "") (hblanks : ∀ c ∈ blanks.toList, isBlank c)
    (h : ofText source = .ok (tokens ++ [⟨.endOfInput, span⟩]))
    (hseam : ¬((∃ t ∈ tokens.getLast?, t.kind.isMarkerName) ∧ opensParen source'.toList)) :
    (∀ tokens', ofText source' = .ok tokens' → ofText (source ++ blanks ++ source') =
        .ok (tokens ++ tokens'.map (Token.shift (byteLength (source ++ blanks))))) ∧
      ∀ e, ofText source' = .error e → ofText (source ++ blanks ++ source') =
        .error (e.shift (byteLength (source ++ blanks))) := by
  have hrest : Seam tokens (blanks ++ source').toList := by
    rw [String.toList_append]
    constructor
    · intro _ c hc
      obtain ⟨d, ds, hd⟩ := List.exists_cons_of_ne_nil (mt String.toList_eq_nil_iff.mp hne)
      rw [hd] at hc
      obtain rfl : d = c := Option.some.inj hc
      exact endsToken_of_isBlank (hblanks d (hd ▸ List.mem_cons_self))
    · intro t ht hname
      rw [opensParen_append_of_blank hblanks]
      exact Bool.eq_false_iff.mpr fun hopens => hseam ⟨⟨t, ht, hname⟩, hopens⟩
  have happend := ofText_append h hrest
  rw [ofText_blanks_append hblanks, ← String.append_assoc] at happend
  constructor
  · intro tokens' htokens'
    rw [happend, htokens', byteLength_append]
    simp only [Except.map, Except.mapError, List.map_map, Function.comp_def, shift_shift]
  · intro e he
    rw [happend, he, byteLength_append]
    simp only [Except.map, Except.mapError, LexError.shift_shift]

/-- After the field `ISOdate`, a space and a blank of three bytes, an escape is refused eleven bytes
further on than by itself. -/
theorem ofText_append_wide_blanks :
    let tokens : List Token := [⟨.field "ISOdate", 0, 7⟩]
    ofText "ISOdate " = .ok (tokens ++ [⟨.endOfInput, .point 8⟩]) ∧
      opensParen "= \"é\\q(\"".toList = false ∧
      ofText "= \"é\\q(\"" = .error (.invalidEscape 5 'q') ∧
      ofText ("ISOdate " ++ "\u3000" ++ "= \"é\\q(\"") = .error (.invalidEscape 16 'q') := by
  intro tokens
  obtain ⟨found, hfound, heq⟩ := Except.exists_of_toOption_any (x := ofText "ISOdate ")
    (p := fun found => found = tokens ++ [⟨.endOfInput, .point 8⟩]) (by decide +kernel)
  rw [of_decide_eq_true heq] at hfound
  have herror : ofText "= \"é\\q(\"" = .error (.invalidEscape 5 'q') :=
    Except.fault?_eq_some_iff.mp (by decide +kernel)
  have hopens : opensParen "= \"é\\q(\"".toList = false := by decide +kernel
  refine ⟨hfound, hopens, herror, ?_⟩
  exact (ofText_append_blanks "ISOdate " "\u3000" "= \"é\\q(\"" tokens _ (by decide)
    (List.all_eq_true.mp (by decide)) hfound (fun h => Bool.false_ne_true (hopens ▸ h.2))).2 _ herror

end Token

end QueryFilter
