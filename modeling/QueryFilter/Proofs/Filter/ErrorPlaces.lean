import QueryFilter.Proofs.Filter.LiteralErrors
import QueryFilter.Proofs.Query.Refusal
import QueryFilter.Proofs.Query.Spans
import QueryFilter.Proofs.Token.Errors

/-!
# Errors stand in the source

Every error of a compilation has a place, and the place is a part of the source: it does not end
before it starts or after the source has ended, and it does not cut a character. So a report can cut
the source there, and count the lines and characters in front of it.

An error of the scan covers the text that it names. All later errors take their spans from tokens,
and these lie in the source: a syntax error has that of a token or stands at the end of the last
one, an error of a typed literal has that of the literal, and an error about an operand has that of
a comparison, which goes from one token to a later one.

## Main definitions

* `Span.LiesIn` — a span that is a part of a text
* `Compiler.Fails` — how a compilation can fail, stage by stage

## Main results

* `Token.liesIn_of_ofText` — tokens lie in the text
* `Compiler.fails_of_compile` — the ways to fail are all there are
* `Compiler.error_lies_in_source` — errors lie in the source, and lexical ones name what stands there
-/

namespace QueryFilter

open Text

/-! ### Spans in a text -/

/-- A span that is a part of a text. -/
structure Span.LiesIn (span : Span) (cs : List Char) : Prop where
  ordered : span.start ≤ span.stop
  bounded : span.stop ≤ utf8Length cs
  start : isBoundary cs span.start
  stop : isBoundary cs span.stop

namespace Span

theorem liesIn_of_covers {cs text : List Char} {span : Span} (h : Token.Covers 0 cs span text) :
    span.LiesIn cs := by
  obtain ⟨hstart, hstop⟩ := h.isBoundary
  obtain ⟨before, after, rfl, rfl⟩ := h
  refine ⟨?_, ?_, hstart, hstop⟩
  · simp only [utf8Length_append, ← Nat.add_assoc]
    exact Nat.le_add_right _ _
  · simp only [utf8Length_append, Nat.zero_add]
    exact Nat.le_add_right _ _

/-- From the start of one part to the end of another. -/
theorem LiesIn.to {s t : Span} {cs : List Char} (hs : s.LiesIn cs) (ht : t.LiesIn cs)
    (h : s.start ≤ t.stop) : LiesIn ⟨s.start, t.stop⟩ cs :=
  ⟨h, ht.bounded, hs.start, ht.stop⟩

theorem LiesIn.point_stop {s : Span} {cs : List Char} (h : s.LiesIn cs) :
    (point s.stop).LiesIn cs :=
  ⟨Nat.le_refl _, h.bounded, h.stop, h.stop⟩

end Span

/-! ### Tokens -/

namespace Token

theorem tiles_of_ofText {source : String} {tokens : List Token} (h : ofText source = .ok tokens) :
    Tiles 0 source.toList tokens := by
  have hscan : scanFrom ⟨0, source.toList⟩ = ⟨tokens, none⟩ := ofText_eq_ok_iff.mp h
  have hfault : (scanFrom ⟨0, source.toList⟩).fault = none := by rw [hscan]
  have htiles := tiles_scanFrom hfault
  rwa [hscan] at htiles

/-- **Tokens lie in the text.** -/
theorem liesIn_of_ofText {source : String} {tokens : List Token} (h : ofText source = .ok tokens) :
    ∀ t ∈ tokens, t.span.LiesIn source.toList := by
  intro t ht
  obtain ⟨text, hcovers, -⟩ := (tiles_of_ofText h).covers ht
  exact Span.liesIn_of_covers hcovers

/-- So does the end of input, where it is not written. -/
theorem liesIn_of_mem_withEnd {tokens : List Token} {cs : List Char}
    (h : ∀ t ∈ tokens, t.span.LiesIn cs) : ∀ t ∈ withEnd 0 tokens, t.span.LiesIn cs := by
  intro t ht
  rcases List.mem_append.mp ht with ht | ht
  · exact h t ht
  · rw [List.mem_singleton.mp ht]
    cases hlast : tokens.getLast? with
    | none =>
      have hzero : isBoundary cs 0 := isBoundary_iff.mpr ⟨[], cs, rfl, rfl⟩
      exact ⟨Nat.le_refl 0, Nat.zero_le _, hzero, hzero⟩
    | some last => exact (h last (List.mem_of_getLast? hlast)).point_stop

/-- A span from one token to a later one. -/
theorem liesIn_of_sublist {source : String} {tokens : List Token} (h : ofText source = .ok tokens)
    {t u : Token} (hsub : [t, u].Sublist tokens) :
    Span.LiesIn ⟨t.span.start, u.span.stop⟩ source.toList := by
  have ht := liesIn_of_ofText h t (hsub.subset List.mem_cons_self)
  have hu := liesIn_of_ofText h u (hsub.subset (List.mem_cons_of_mem t List.mem_cons_self))
  have hlt : t.span.start < u.span.start :=
    (List.pairwise_pair.mp ((tiles_of_ofText h).pairwise.sublist hsub)).1
  exact ht.to hu (Nat.le_trans (Nat.le_of_lt hlt) hu.ordered)

theorem span_of_marker? {t : Token} {m : Marker} (h : t.marker? = some m) :
    m.span = some t.span := by
  obtain ⟨kind, span⟩ := t
  cases kind with
  | marker kind raw =>
    cases h
    rfl
  | _ => cases h

end Token

/-! ### Errors take their spans from what they are about -/

theorem Query.State.span_refuse (limit : Nat) (s : State) (token : Token) :
    (s.refuse limit token).span = token.span := by
  rw [refuse]
  split
  · rfl
  · rfl

theorem Query.span_of_ofTokens_error {limit : Nat} {tokens : List Token} {e : SyntaxError}
    (h : ofTokens limit tokens = .error e) : ∃ t ∈ Token.withEnd 0 tokens, e.span = t.span := by
  obtain ⟨i, t, last, ht, -, -, hfail⟩ := State.run_eq_error_iff.mp h
  refine ⟨t, List.mem_of_getElem? ht, ?_⟩
  rw [State.eq_refuse_of_failure? hfail, State.span_refuse]

theorem Comparison.span_of_emit {c : Comparison} {e : OperandMismatch} (h : c.emit = .error e) :
    e.span = c.span := by
  rw [emit] at h
  split at h
  · cases h
    rfl
  · cases h

theorem Reviver.span_of_decode {r : Reviver} {m : Marker} {e : LiteralError}
    (h : r.decode m = .error e) : e.span = m.span := by
  rw [decode] at h
  split at h
  · cases h
    rfl
  · split at h
    · cases h
    · cases h
      rfl

/-! ### Errors of a compilation -/

namespace Compiler

variable {c : Compiler} {source : String}

/-- The ways in which a compilation can fail, one for each stage. -/
inductive Fails (c : Compiler) (source : String) : CompileError → Prop
  | lexical {e : LexError} (h : Token.ofText source = .error e) : Fails c source (.lexical e)
  | syntactic {tokens : List Token} {e : SyntaxError} (htokens : Token.ofText source = .ok tokens)
      (h : Query.ofTokens c.settings.maxDepth tokens = .error e) : Fails c source (.syntactic e)
  | operand {q : Query} {d : Comparison} {e : OperandMismatch} (hq : c.parse source = .ok q)
      (hd : d ∈ q.comparisons) (h : d.emit = .error e) : Fails c source (.operand e)
  | literal {q : Query} {m : Marker} {e : LiteralError} (hq : c.parse source = .ok q)
      (hm : m ∈ q.markers) (h : c.reviver.decode m = .error e) : Fails c source (.literal e)

theorem fails_of_parse {e : CompileError} (h : c.parse source = .error e) : c.Fails source e := by
  rw [parse, tokens] at h
  cases htokens : Token.ofText source with
  | error lex =>
    rw [htokens] at h
    cases h
    exact .lexical htokens
  | ok found =>
    rw [htokens] at h
    obtain ⟨syn, hsyn, rfl⟩ := Except.mapError_eq_error_iff.mp h
    exact .syntactic htokens hsyn

/-- **A compilation fails in one of these ways.** -/
theorem fails_of_compile {e : CompileError} (h : c.compile source = .error e) :
    c.Fails source e := by
  cases hparse : c.parse source with
  | error e' =>
    rw [compile_eq_bind, emit_eq_bind, hparse] at h
    cases h
    exact fails_of_parse hparse
  | ok q =>
    rw [← Except.fault?_eq_some_iff, fault?_compile_of_parse hparse, Option.or_eq_some_iff] at h
    rcases h with h | ⟨-, h⟩
    · obtain ⟨mismatch, hfirst, rfl⟩ := Option.map_eq_some_iff.mp h
      obtain ⟨d, hd, hfault⟩ := List.exists_of_findSome?_eq_some hfirst
      exact .operand hparse hd (Except.fault?_eq_some_iff.mp hfault)
    · obtain ⟨error, hfirst, rfl⟩ := Option.map_eq_some_iff.mp h
      obtain ⟨m, hm, hfault⟩ := List.exists_of_findSome?_eq_some hfirst
      exact .literal hparse hm (Except.fault?_eq_some_iff.mp hfault)

/-- The comparisons of a parsed tree lie in the source. -/
theorem liesIn_of_mem_comparisons {q : Query} (h : c.parse source = .ok q) :
    ∀ d ∈ q.comparisons, d.span.LiesIn source.toList := by
  intro d hd
  obtain ⟨found, htokens, hq⟩ := parse_eq_ok_iff.mp h
  obtain ⟨front, stop, rfl, hend⟩ := Token.exists_front_of_ofText htokens
  obtain ⟨t, u, hsub, hspan⟩ := Query.spans_of_ofTokens hend (by simp) hq d hd
  rw [hspan]
  exact Token.liesIn_of_sublist htokens (hsub.trans (List.sublist_append_left _ _))

/-- The typed literals of a parsed tree have a place, and lie in the source. -/
theorem liesIn_of_mem_markers {q : Query} (h : c.parse source = .ok q) :
    ∀ m ∈ q.markers, ∃ span, m.span = some span ∧ span.LiesIn source.toList := by
  intro m hm
  obtain ⟨found, htokens, -⟩ := parse_eq_ok_iff.mp h
  rw [markers_of_parse htokens h] at hm
  obtain ⟨t, ht, hmarker⟩ := List.mem_filterMap.mp hm
  exact ⟨t.span, Token.span_of_marker? hmarker, Token.liesIn_of_ofText htokens t ht⟩

theorem Fails.liesIn {e : CompileError} (h : c.Fails source e) :
    ∃ span, e.span? = some span ∧ span.LiesIn source.toList := by
  cases h with
  | lexical h =>
    obtain ⟨text, hcovers, -⟩ := Token.isAbout_of_ofText h
    exact ⟨_, rfl, Span.liesIn_of_covers hcovers⟩
  | syntactic htokens h =>
    obtain ⟨t, ht, hspan⟩ := Query.span_of_ofTokens_error h
    refine ⟨_, rfl, ?_⟩
    rw [hspan]
    exact Token.liesIn_of_mem_withEnd (Token.liesIn_of_ofText htokens) t ht
  | operand hq hd h =>
    refine ⟨_, rfl, ?_⟩
    rw [Comparison.span_of_emit h]
    exact liesIn_of_mem_comparisons hq _ hd
  | literal hq hm h =>
    obtain ⟨span, hspan, hin⟩ := liesIn_of_mem_markers hq _ hm
    exact ⟨span, (Reviver.span_of_decode h).trans hspan, hin⟩

/-- **Errors lie in the source.** Every error has a place in the source, at which the source can be
cut, and with it the line in which the error starts. What stands at the place of a lexical error is
what the error names. -/
theorem error_lies_in_source (c : Compiler) (source : String) (e : CompileError)
    (h : c.compile source = .error e) :
    ∃ span, e.span? = some span ∧ span.start ≤ span.stop ∧ span.stop ≤ byteLength source ∧
      isBoundary source.toList span.start ∧ isBoundary source.toList span.stop ∧
      (∃ before, takeBytes span.start source.toList = before ∧
        slice? source.toList 0 span.start = some before ∧
        slice? source.toList (utf8Length before - utf8Length (lastLine before)) span.start =
          some (lastLine before)) ∧
      ∀ lex, e = .lexical lex → ∃ text,
        slice? source.toList span.start span.stop = some text ∧ lex.Shows text := by
  have hfails := fails_of_compile h
  obtain ⟨span, hspan, hin⟩ := hfails.liesIn
  refine ⟨span, hspan, hin.ordered, hin.bounded, hin.start, hin.stop,
    ⟨_, rfl, slice?_takeBytes hin.start, slice?_lastLine hin.start⟩, ?_⟩
  rintro lex rfl
  cases hspan
  cases hfails with
  | lexical hlex =>
    obtain ⟨text, hcovers, hshows⟩ := Token.isAbout_of_ofText hlex
    exact ⟨text, hcovers.slice?, hshows⟩

/-- A bad escape of three bytes in the second line, after a character of two bytes in the first. -/
theorem error_lies_in_wide_source :
    let source := "a = 'é' AND\nb = \"\\ü\""
    ({} : Compiler).compile source = .error (.lexical (.invalidEscape 18 'ü')) ∧
      21 ≤ byteLength source ∧ isBoundary source.toList 18 ∧ isBoundary source.toList 21 ∧
      slice? source.toList 18 21 = some ['\\', 'ü'] := by
  intro source
  have hfault : Except.fault? (({} : Compiler).compile source) =
      some (.lexical (.invalidEscape 18 'ü')) := by
    decide +kernel
  have herror := Except.fault?_eq_some_iff.mp hfault
  obtain ⟨span, hspan, -, hbounded, hstart, hstop, -, hshown⟩ :=
    error_lies_in_source {} source _ herror
  cases hspan
  obtain ⟨text, hslice, rfl⟩ := hshown _ rfl
  exact ⟨herror, hbounded, hstart, hstop, hslice⟩

end Compiler

end QueryFilter
