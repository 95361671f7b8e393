import QueryFilter.Proofs.Token.Locality

/-!
# The tokens of a text tile it

The tokens of a text stand in it one after the other, with nothing but blanks between them, and the
end of input stands at its end. So the text is a row of blanks and token texts. Each token text is
read as that one token when it stands alone, so no token depends on its neighbours and nothing of
the text is lost.

The proof has two halves. A scan cuts the text into such a row, read by read; that is where tokens
are known to be local. What the row says about spans in the text is then a fact about rows.

## Main definitions

* `Token.StandsAlone` — a text that is one token
* `Token.Tiles` — a text cut into blanks and tokens
* `Token.Tiling` — what that says about the spans of the tokens

## Main results

* `Token.tiles_scanFrom` — a scan without an error cuts the text
* `Token.tiling_of_ofText` — the tokens of a text tile it
-/

namespace QueryFilter

namespace Token

open Text

/-! ### A token that stands alone -/

/-- A text that is one token, from its start to its end. -/
def StandsAlone (kind : TokenKind) (text : List Char) : Prop :=
  ofText (String.ofList text) =
    .ok [⟨kind, ⟨0, utf8Length text⟩⟩, ⟨.endOfInput, .point (utf8Length text)⟩]

theorem scanFrom_of_end {cursor : Cursor} {stop : Nat} (h : cursor.skipBlanks = ⟨stop, []⟩) :
    scanFrom cursor = ⟨[⟨.endOfInput, .point stop⟩], none⟩ := by
  unfold scanFrom
  split
  · rename_i hend
    cases h.symm.trans hend
    rfl
  · rename_i hstart
    cases h.symm.trans hstart

theorem scanFrom_of_read {cursor next : Cursor} {start : Nat} {c : Char} {cs : List Char}
    {kind : TokenKind} (hstart : cursor.skipBlanks = ⟨start, c :: cs⟩)
    (hread : read start c cs = .ok (kind, next)) :
    scanFrom cursor = (scanFrom next).cons ⟨kind, start, next.position⟩ := by
  rw [scanFrom]
  split
  · rename_i hend
    cases hstart.symm.trans hend
  · rename_i hstart'
    cases hstart.symm.trans hstart'
    split
    · rename_i hread'
      cases hread.symm.trans hread'
    · rename_i hread'
      cases hread.symm.trans hread'
      rfl

/-- What is read as a token is that token when it stands alone. -/
theorem standsAlone_of_read {position : Nat} {c : Char} {cs : List Char} {kind : TokenKind}
    {next : Cursor} (hc : isBlank c = false) (h : read position c cs = .ok (kind, next)) :
    ∃ body, cs = body ++ next.rest ∧ next.position = position + utf8Length (c :: body) ∧
      StandsAlone kind (c :: body) := by
  obtain ⟨body, hcs, hnext, hlocal⟩ := read_local h
  refine ⟨body, hcs, hnext, ?_⟩
  have hread := hlocal 0 [] ⟨endsAlike_nil next.rest, fun _ hopens => absurd hopens (by decide)⟩
  rw [List.append_nil, Nat.zero_add] at hread
  have hstart : Cursor.skipBlanks ⟨0, c :: body⟩ = ⟨0, c :: body⟩ :=
    Cursor.skipBlanks_append (List.forall_mem_nil _) hc 0 body
  have hscan : scan (String.ofList (c :: body)) = ⟨[⟨kind, ⟨0, utf8Length (c :: body)⟩⟩,
      ⟨.endOfInput, .point (utf8Length (c :: body))⟩], none⟩ := by
    rw [scan, String.toList_ofList, scanFrom_of_read hstart hread, scanFrom_of_end rfl]
    rfl
  rw [StandsAlone, ofText, hscan]

/-! ### A scan cuts the text -/

/-- A text that starts at an offset, cut into tokens with blanks before each of them. -/
inductive Tiles : Nat → List Char → List Token → Prop
  | finish {position : Nat} {blanks : List Char} (hblanks : ∀ c ∈ blanks, isBlank c) :
      Tiles position blanks [⟨.endOfInput, .point (position + utf8Length blanks)⟩]
  | token {position : Nat} {blanks text rest : List Char} {kind : TokenKind} {tokens : List Token}
      (hblanks : ∀ c ∈ blanks, isBlank c) (hkind : kind ≠ .endOfInput) (hne : text ≠ [])
      (htext : StandsAlone kind text)
      (hrest : Tiles (position + utf8Length (blanks ++ text)) rest tokens) :
      Tiles position (blanks ++ text ++ rest)
        (⟨kind, position + utf8Length blanks, position + utf8Length (blanks ++ text)⟩ :: tokens)

/-- A scan without an error cuts the text that is left into its tokens. -/
theorem tiles_scanFrom {cursor : Cursor} (h : (scanFrom cursor).fault = none) :
    Tiles cursor.position cursor.rest (scanFrom cursor).tokens := by
  fun_induction scanFrom cursor with
  | case1 cursor stop hend =>
    obtain ⟨-, blanks, hblanks, hrest, rfl⟩ := Cursor.skipBlanks_eq_iff.mp hend
    rw [hrest, List.append_nil]
    exact .finish hblanks
  | case2 => cases h
  | case3 cursor start c cs hstart kind next hread _ ih =>
    obtain ⟨hfirst, blanks, hblanks, hrest, rfl⟩ := Cursor.skipBlanks_eq_iff.mp hstart
    obtain ⟨body, hbody, hnext, halone⟩ := standsAlone_of_read (hfirst c rfl) hread
    have hplace : next.position = cursor.position + utf8Length (blanks ++ c :: body) := by
      rw [hnext, utf8Length_append, Nat.add_assoc]
    have htail := ih h
    rw [hplace] at htail
    rw [hrest, hbody, ← List.cons_append, ← List.append_assoc, hplace]
    exact .token hblanks (kind_ne_endOfInput_of_read hread) (List.cons_ne_nil c body) halone htail

/-! ### The spans of a cut text -/

/-- A span covers a part of a text that starts at an offset. -/
def Covers (position : Nat) (cs : List Char) (span : Span) (text : List Char) : Prop :=
  ∃ before after, cs = before ++ text ++ after ∧
    span = ⟨position + utf8Length before, position + utf8Length (before ++ text)⟩

theorem covers_append (position : Nat) (before text after : List Char) :
    Covers position (before ++ text ++ after)
      ⟨position + utf8Length before, position + utf8Length (before ++ text)⟩ text :=
  ⟨before, after, rfl, rfl⟩

theorem Covers.append_left {position : Nat} {front cs text : List Char} {span : Span}
    (h : Covers (position + utf8Length front) cs span text) :
    Covers position (front ++ cs) span text := by
  obtain ⟨before, after, rfl, rfl⟩ := h
  refine ⟨front ++ before, after, by simp only [List.append_assoc], ?_⟩
  simp only [utf8Length_append, Nat.add_assoc]

theorem Covers.le_start {position : Nat} {cs text : List Char} {span : Span}
    (h : Covers position cs span text) : position ≤ span.start := by
  obtain ⟨before, after, -, rfl⟩ := h
  exact Nat.le_add_right _ _

theorem Covers.slice? {cs text : List Char} {span : Span} (h : Covers 0 cs span text) :
    slice? cs span.start span.stop = some text := by
  obtain ⟨before, after, rfl, rfl⟩ := h
  exact slice?_eq_some_iff.mpr ⟨before, after, rfl, Nat.zero_add _, Nat.zero_add _⟩

theorem Covers.isBoundary {cs text : List Char} {span : Span} (h : Covers 0 cs span text) :
    isBoundary cs span.start ∧ isBoundary cs span.stop := by
  obtain ⟨before, after, rfl, rfl⟩ := h
  exact ⟨isBoundary_iff.mpr ⟨before, text ++ after, List.append_assoc _ _ _, Nat.zero_add _⟩,
    isBoundary_iff.mpr ⟨before ++ text, after, rfl, Nat.zero_add _⟩⟩

/-- The spans between an offset and the first of some spans, and between neighbours. -/
def gaps : Nat → List Span → List Span
  | _, [] => []
  | stop, s :: more => ⟨stop, s.start⟩ :: gaps s.stop more

/-- Every token covers its text. -/
theorem Tiles.covers {position : Nat} {cs : List Char} {tokens : List Token}
    (h : Tiles position cs tokens) {t : Token} (ht : t ∈ tokens) :
    ∃ text, Covers position cs t.span text ∧ (t.kind ≠ .endOfInput → StandsAlone t.kind text) := by
  induction h with
  | finish hblanks =>
    rename_i position blanks
    obtain rfl := List.mem_singleton.mp ht
    refine ⟨[], ⟨blanks, [], by simp, ?_⟩, fun hkind => absurd rfl hkind⟩
    rw [List.append_nil]
    rfl
  | token hblanks hkind hne htext hrest ih =>
    rcases List.mem_cons.mp ht with rfl | ht
    · exact ⟨_, covers_append _ _ _ _, fun _ => htext⟩
    · obtain ⟨text, hcovers, halone⟩ := ih ht
      exact ⟨text, hcovers.append_left, halone⟩

/-- Every gap covers blanks. -/
theorem Tiles.blank_gaps {position : Nat} {cs : List Char} {tokens : List Token}
    (h : Tiles position cs tokens) {gap : Span}
    (hgap : gap ∈ gaps position (tokens.map Token.span)) :
    ∃ blanks, Covers position cs gap blanks ∧ ∀ c ∈ blanks, isBlank c := by
  induction h with
  | finish hblanks =>
    rename_i position blanks
    obtain rfl := List.mem_singleton.mp hgap
    exact ⟨blanks, ⟨[], [], by simp, rfl⟩, hblanks⟩
  | token hblanks hkind hne htext hrest ih =>
    rename_i position blanks text rest kind tokens
    rcases List.mem_cons.mp hgap with rfl | hgap
    · exact ⟨blanks, ⟨[], text ++ rest, by simp, rfl⟩, hblanks⟩
    · obtain ⟨between, hcovers, hbetween⟩ := ih hgap
      exact ⟨between, hcovers.append_left, hbetween⟩

/-- Later tokens start where earlier ones have ended. -/
theorem Tiles.pairwise {position : Nat} {cs : List Char} {tokens : List Token}
    (h : Tiles position cs tokens) :
    tokens.Pairwise fun t u => t.span.start < u.span.start ∧ t.span.stop ≤ u.span.start := by
  induction h with
  | finish hblanks => exact List.pairwise_singleton _ _
  | token hblanks hkind hne htext hrest ih =>
    refine List.Pairwise.cons (fun u hu => ?_) ih
    obtain ⟨text, hcovers, -⟩ := hrest.covers hu
    have hstart := hcovers.le_start
    have hpos := utf8Length_pos hne
    rw [utf8Length_append] at hstart ⊢
    refine ⟨?_, hstart⟩
    simp only
    omega

/-- The end of input stands at the end, and all other tokens before it. -/
theorem Tiles.exists_eq_append {position : Nat} {cs : List Char} {tokens : List Token}
    (h : Tiles position cs tokens) :
    ∃ front, tokens = front ++ [⟨.endOfInput, .point (position + utf8Length cs)⟩] ∧
      ∀ t ∈ front, t.kind ≠ .endOfInput ∧ t.span.start < t.span.stop := by
  induction h with
  | finish hblanks => exact ⟨[], rfl, fun t ht => absurd ht List.not_mem_nil⟩
  | token hblanks hkind hne htext hrest ih =>
    rename_i position blanks text rest kind tokens
    obtain ⟨front, rfl, hfront⟩ := ih
    refine ⟨⟨kind, position + utf8Length blanks, position + utf8Length (blanks ++ text)⟩ :: front,
      ?_, List.forall_mem_cons.mpr ⟨⟨hkind, ?_⟩, hfront⟩⟩
    · simp only [List.cons_append, utf8Length_append, Nat.add_assoc]
    · have hpos := utf8Length_pos hne
      simp only [utf8Length_append]
      omega

/-! ### Tokens of a text -/

/-- Tokens that tile a text: nothing but blanks lies outside of their spans. -/
structure Tiling (source : String) (tokens : List Token) : Prop where
  /-- The last token is the empty end of input, and all others are something else and not empty. -/
  ends : ∃ front, tokens = front ++ [⟨.endOfInput, .point (byteLength source)⟩] ∧
    ∀ t ∈ front, t.kind ≠ .endOfInput ∧ t.span.start < t.span.stop
  /-- No span cuts a character. -/
  boundaries : ∀ t ∈ tokens, isBoundary source.toList t.span.start ∧
    isBoundary source.toList t.span.stop
  /-- The spans increase, and do not overlap. -/
  ordered : tokens.Pairwise fun t u => t.span.start < u.span.start ∧ t.span.stop ≤ u.span.start
  /-- Before the first token and between neighbours there are only blanks. -/
  separated : ∀ gap ∈ gaps 0 (tokens.map Token.span), ∃ blanks,
    slice? source.toList gap.start gap.stop = some blanks ∧ ∀ c ∈ blanks, isBlank c
  /-- The text of a token is that token when it stands alone. -/
  standAlone : ∀ t ∈ tokens, t.kind ≠ .endOfInput → ∃ text,
    slice? source.toList t.span.start t.span.stop = some text ∧ StandsAlone t.kind text

/-- **Scanning loses nothing.** The tokens of a text tile it. -/
theorem tiling_of_ofText {source : String} {tokens : List Token} (h : ofText source = .ok tokens) :
    Tiling source tokens := by
  have htiles : Tiles 0 source.toList tokens := by
    rw [ofText] at h
    split at h
    · rename_i hfault
      cases h
      exact tiles_scanFrom hfault
    · cases h
  obtain ⟨front, hfront⟩ := htiles.exists_eq_append
  rw [Nat.zero_add] at hfront
  refine ⟨⟨front, hfront⟩, fun t ht => ?_, htiles.pairwise, fun gap hgap => ?_,
    fun t ht hkind => ?_⟩
  · obtain ⟨text, hcovers, -⟩ := htiles.covers ht
    exact hcovers.isBoundary
  · obtain ⟨blanks, hcovers, hblanks⟩ := htiles.blank_gaps hgap
    exact ⟨blanks, hcovers.slice?, hblanks⟩
  · obtain ⟨text, hcovers, halone⟩ := htiles.covers ht
    exact ⟨text, hcovers.slice?, halone hkind⟩

/-- A field with the name of a typed literal, a blank of three bytes, and a literal with blanks, an
escape and a character of two bytes in it. -/
theorem tiling_of_wide_text :
    let source := "date =\u3000oid ( \"\\u00e9é\" ) "
    let tokens : List Token := [⟨.field "date", 0, 4⟩, ⟨.equal, 5, 6⟩,
      ⟨.marker .objectId "éé", 9, 27⟩, ⟨.endOfInput, .point 28⟩]
    ofText source = .ok tokens ∧ Tiling source tokens := by
  intro source tokens
  obtain ⟨found, hfound, heq⟩ := Except.exists_of_toOption_any (x := ofText source)
    (p := fun found => found = tokens) (by decide +kernel)
  rw [of_decide_eq_true heq] at hfound
  exact ⟨hfound, tiling_of_ofText hfound⟩

end Token

end QueryFilter
