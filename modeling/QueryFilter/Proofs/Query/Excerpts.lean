import QueryFilter.Proofs.Filter.ErrorPlaces
import QueryFilter.Proofs.Query.Composition
import QueryFilter.Proofs.Query.Segments
import QueryFilter.Proofs.Token.Excerpt

/-!
# Comparisons cut out of a query

The span of a comparison is the text of the comparison, no more and no less. If the source is cut
there, what is left is a query by itself: the same comparison, with all its places counted from the
start of the cut. So a message that points at the span of a comparison shows what it is about, and
an editor can take a comparison out of a query and put it into another one.

The scanner finds the tokens of the comparison in the text that they cover, and the parser makes the
same comparison of them with nothing around it. Both are moved to the start of the cut, which
neither of them notices.

## Main definitions

* `Comparison.shift` — a comparison whose text stands further on

## Main results

* `Compiler.parse_excerpt` — the text of one comparison
* `Compiler.comparisons_parse_alone` — all comparisons of a query, and their order
-/

namespace QueryFilter

open Text

/-- The comparison of a text that is moved behind `n` more bytes. -/
def Comparison.shift (n : Nat) (c : Comparison) : Comparison := c.relocate (· + n)

namespace Query

/-! ### Moving back -/

/-- Tokens that are a query in some places are a query in their own. -/
theorem Reads.of_relocate {limit : Nat} {tokens : List Token} {chain : Chain} {g : Nat → Nat}
    (h : Reads limit (tokens.map (Token.relocate g)) chain) :
    ∃ alone, Reads limit tokens alone ∧ alone.relocate g = chain := by
  have hfeed : (State.initial.feed? limit tokens).map (State.relocate g) =
      some ⟨[], chain, .afterOperand⟩ := (State.feed?_relocate g .initial tokens).symm.trans h
  obtain ⟨⟨frames, alone, mode⟩, halone, hlast⟩ := Option.map_eq_some_iff.mp hfeed
  rw [State.relocate, State.mk.injEq] at hlast
  obtain ⟨hframes, hchain, hmode⟩ := hlast
  obtain rfl := List.map_eq_nil_iff.mp hframes
  cases mode with
  | afterOperand => exact ⟨alone, halone, hchain⟩
  | _ => cases hmode

/-- Only a comparison is a comparison in other places. -/
theorem exists_of_relocate_comparison {q : Query} {c : Comparison} {g : Nat → Nat}
    (h : q.relocate g = .comparison c) : ∃ d, q = .comparison d ∧ d.relocate g = c := by
  cases q with
  | comparison d =>
    rw [relocate, Query.comparison.injEq] at h
    exact ⟨d, rfl, h⟩
  | and operands | or operands | not operand | group content => cases h

/-- Tokens that are a comparison in other places are one in their own. -/
theorem IsComparison.exists_reads {limit : Nat} {tokens : List Token} {c : Comparison} {n : Nat}
    (h : IsComparison limit (tokens.map (Token.shift n)) c) :
    ∃ d, Reads limit tokens ⟨[], [.comparison d]⟩ ∧ d.shift n = c := by
  have hmoved : Reads limit (tokens.map (Token.relocate (· + n))) ⟨[], [.comparison c]⟩ := h.reads
  obtain ⟨⟨disjuncts, conjuncts⟩, hreads, hchain⟩ := hmoved.of_relocate
  rw [Chain.relocate, Chain.mk.injEq] at hchain
  obtain rfl := List.map_eq_nil_iff.mp hchain.1
  obtain ⟨q, rfl, hq⟩ := List.map_eq_singleton_iff.mp hchain.2
  obtain ⟨d, rfl, hd⟩ := exists_of_relocate_comparison hq
  exact ⟨d, hreads, hd⟩

end Query

namespace Compiler

variable {c : Compiler} {source : String} {q : Query}

/-- **The text of a comparison** is the comparison by itself. -/
theorem parse_excerpt (h : c.parse source = .ok q) {d : Comparison} (hd : d ∈ q.comparisons) :
    ∃ text e, Token.Covers 0 source.toList d.span text ∧
      c.parse (String.ofList text) = .ok (.comparison e) ∧ e.shift d.span.start = d := by
  obtain ⟨tokens, chain, hscans, hreads, rfl⟩ := parse_eq_ok_iff_reads.mp h
  obtain ⟨before, segment, after, rfl, hsegment⟩ := hreads.holds.exists_segment hd
  obtain ⟨first, hfirst, hstart⟩ := Option.map_eq_some_iff.mp hsegment.start
  obtain ⟨last, hlast, hstop⟩ := Option.map_eq_some_iff.mp hsegment.stop
  obtain ⟨text, alone, hcovers, halone, rfl⟩ := hscans.excerpt hfirst hlast
  rw [hstart] at hcovers hsegment
  rw [hstop] at hcovers
  obtain ⟨e, he, hshift⟩ := hsegment.exists_reads
  exact ⟨text, e, hcovers, parse_eq_ok_iff_reads.mpr ⟨alone, _, halone, he, rfl⟩, hshift⟩

/-- The comparisons of a query are in the order of the source. -/
theorem pairwise_comparisons (h : c.parse source = .ok q) :
    q.comparisons.Pairwise fun d e => d.span.start < e.span.start ∧ d.span.stop ≤ e.span.start := by
  obtain ⟨tokens, chain, ⟨stop, htext⟩, hreads, rfl⟩ := parse_eq_ok_iff_reads.mp h
  exact hreads.holds.pairwise (List.pairwise_append.mp (Token.tiles_of_ofText htext).pairwise).1

/-- **Comparisons can be cut out of a query.** The span of every comparison is a part of the source,
and the text there is a query by itself: the comparison, which is the one of the whole query once it
is moved to where the text starts. The spans do not overlap, and are in the order of the source. -/
theorem comparisons_parse_alone (c : Compiler) (source : String) (q : Query)
    (h : c.parse source = .ok q) :
    (∀ d ∈ q.comparisons, d.span.LiesIn source.toList ∧ ∃ text e,
        slice? source.toList d.span.start d.span.stop = some text ∧
        c.parse (String.ofList text) = .ok (.comparison e) ∧ e.shift d.span.start = d) ∧
      q.comparisons.Pairwise fun d e =>
        d.span.start < e.span.start ∧ d.span.stop ≤ e.span.start := by
  refine ⟨fun d hd => ?_, pairwise_comparisons h⟩
  obtain ⟨text, e, hcovers, hparse, hshift⟩ := parse_excerpt h hd
  exact ⟨Span.liesIn_of_covers hcovers, text, e, hcovers.slice?, hparse, hshift⟩

/-- After a character of two bytes, arrays in arrays with typed literals in a group, which is as
deep as it may be, and an operator of two tokens after a negation. -/
theorem comparisons_parse_alone_in_group :
    let source := "a = 'é' AND (b NOT IN [date('x'), [oid ( 'y' )]] OR NOT c NOT EXISTS)"
    let compiler := ({} : Compiler).withDepth 3
    ∃ q, compiler.parse source = .ok q ∧
      q.comparisons.map Comparison.span = [⟨0, 8⟩, ⟨14, 49⟩, ⟨57, 69⟩] ∧
      ∀ d ∈ q.comparisons, ∃ text e, slice? source.toList d.span.start d.span.stop = some text ∧
        compiler.parse (String.ofList text) = .ok (.comparison e) ∧ e.shift d.span.start = d := by
  intro source compiler
  obtain ⟨q, hq, hspans⟩ := Except.exists_of_toOption_any (x := compiler.parse source)
    (p := fun q => q.comparisons.map Comparison.span = [⟨0, 8⟩, ⟨14, 49⟩, ⟨57, 69⟩])
    (by decide +kernel)
  exact ⟨q, hq, of_decide_eq_true hspans,
    fun d hd => ((comparisons_parse_alone compiler source q hq).1 d hd).2⟩

end Compiler

end QueryFilter
