import QueryFilter.Proofs.Query.Context
import QueryFilter.Proofs.Query.Source
import QueryFilter.Proofs.Token.Composition

/-!
# Queries put together as text

Texts of queries can be pasted into larger ones: with `OR` between them as they are, with `AND`
between them or `NOT` in front if they stand in parentheses. The tree of the whole is then made of
the trees of the parts, each moved behind the text in front of it. Two things could spoil this and do
not. At the seams, the text after a part neither goes on with its last token nor opens a parenthesis.
And since `OR` binds least, a part that is itself a chain of `OR` joins the chain of the whole
instead of becoming an operand of it; for the same reason the other two need the parentheses.

Each group and negation around a part takes one more level of nesting.

## Main definitions

* `Query.shift` — a tree whose text stands further on
* `Query.disjuncts` — the operands of a chain of `OR`, or the query itself
* `Compiler.withDepth` — a compiler with another limit of nesting

## Main results

* `Compiler.parse_or`, `Compiler.parse_and_groups`, `Compiler.parse_not_group` — each way to put
  texts together
* `Compiler.parse_composed` — all of them
-/

namespace QueryFilter

open Text

namespace Query

/-! ### Operands of `OR` -/

/-- The tree of a text that is moved behind `n` more bytes. -/
def shift (n : Nat) (q : Query) : Query := q.relocate (· + n)

/-- The operands of a chain of `OR`; any other query is its own only operand. -/
def disjuncts : Query → List Query
  | or operands => operands
  | q => [q]

theorem disjuncts_disjunction {qs : List Query} (hne : qs ≠ [])
    (h : ∀ q ∈ qs, q.isDisjunction = false) : (disjunction qs).disjuncts = qs := by
  match qs, hne with
  | [q], _ =>
    have hq := h q List.mem_cons_self
    cases q with
    | or operands => cases hq
    | _ => rfl
  | q :: r :: more, _ => rfl

theorem disjunction_append {as bs : List Query} (has : as ≠ []) (hbs : bs ≠ []) :
    disjunction (as ++ bs) = or (as ++ bs) := by
  obtain ⟨a, as, rfl⟩ := List.exists_cons_of_ne_nil has
  cases hmore : as ++ bs with
  | nil => exact absurd (List.append_eq_nil_iff.mp hmore).2 hbs
  | cons q qs => rw [List.cons_append, hmore]; rfl

namespace Reads

variable {limit : Nat} {tokens more : List Token} {chain inner : Chain}

theorem shift (h : Reads limit tokens chain) (n : Nat) :
    Reads limit (tokens.map (Token.shift n)) (chain.relocate (· + n)) :=
  h.relocate (· + n)

/-- The operands of `OR` of a query that has been read are those of its chain. -/
theorem disjuncts_close (h : Reads limit tokens chain) :
    chain.close.disjuncts = chain.split.disjuncts.reverse := by
  obtain ⟨hvalid, -⟩ := State.feed?_advances (State.valid_initial limit) h (by simp)
  have hsplit := hvalid.chain.split (hvalid.settled rfl).1 (Nat.zero_le limit)
  refine disjuncts_disjunction (by simp [Chain.split]) ?_
  intro q hq
  exact (hsplit.disjunct q (List.mem_reverse.mp hq)).2.1

/-- The query of two queries with `OR` between them has the operands of both. -/
theorem close_or (h : Reads limit tokens chain) (hmore : Reads limit more inner) :
    (Chain.mk (inner.disjuncts ++ chain.split.disjuncts) inner.conjuncts).close =
      .or (chain.close.disjuncts ++ inner.close.disjuncts) := by
  have hne : ∀ chain : Chain, chain.split.disjuncts.reverse ≠ [] := by simp [Chain.split]
  rw [h.disjuncts_close, hmore.disjuncts_close, ← disjunction_append (hne chain) (hne inner),
    ← List.reverse_append]
  rfl

end Reads

end Query

namespace Compiler

/-- The same compiler with another limit of nesting. -/
def withDepth (c : Compiler) (depth : Nat) : Compiler :=
  { c with settings := { c.settings with maxDepth := depth } }

/-- The tree of a text is that of the chain that its tokens make. -/
theorem parse_eq_ok_iff_reads {c : Compiler} {source : String} {q : Query} :
    c.parse source = .ok q ↔ ∃ tokens chain, Token.Scans source tokens ∧
      Query.Reads c.settings.maxDepth tokens chain ∧ chain.close = q := by
  rw [parse_eq_ok_iff]
  constructor
  · rintro ⟨found, htext, hq⟩
    obtain ⟨tokens, stop, rfl, -⟩ := Token.exists_eq_append_of_ofText htext
    have hscans : Token.Scans source tokens := ⟨stop, htext⟩
    obtain ⟨⟨frames, chain, mode⟩, hfeed, rfl, rfl, hclose⟩ :=
      (Query.State.run_eq_ok_iff hscans.kind_ne_endOfInput (by simp)).mp hq
    exact ⟨tokens, chain, hscans, hfeed, hclose⟩
  · rintro ⟨tokens, chain, hscans, hreads, hclose⟩
    obtain ⟨stop, htext⟩ := id hscans
    exact ⟨_, htext, (Query.State.run_eq_ok_iff hscans.kind_ne_endOfInput (by simp)).mpr
      ⟨_, hreads, rfl, rfl, hclose⟩⟩

variable {c : Compiler} {d : Nat} {source source' : String} {q q' : Query}

/-- **Two queries with `OR` between them.** -/
theorem parse_or (h : c.parse source = .ok q) (h' : c.parse source' = .ok q') :
    c.parse (source ++ " OR " ++ source') =
      .ok (.or (q.disjuncts ++ (q'.shift (byteLength (source ++ " OR "))).disjuncts)) := by
  obtain ⟨tokens, chain, hscans, hreads, rfl⟩ := parse_eq_ok_iff_reads.mp h
  obtain ⟨tokens', chain', hscans', hreads', rfl⟩ := parse_eq_ok_iff_reads.mp h'
  have htext : source ++ " OR " ++ source' = source ++ (" " ++ ("OR" ++ " " ++ source')) := by
    rw [String.append_assoc]
    rfl
  have hseam : Token.Seam tokens (" " ++ ("OR" ++ " " ++ source')).toList := by
    simp only [String.toList_append]
    exact ⟨fun _ c hc => Option.some.inj hc ▸ by decide, fun _ _ _ => rfl⟩
  have hscans'' := (hscans'.keyword_append "OR" .or (by decide)).space_append
  have hall := hscans.append hscans'' hseam
  simp only [List.map_cons, List.map_map, Token.comp_shift] at hall
  have hreads'' := hreads'.shift (byteLength source + (1 + (byteLength "OR" + 1)))
  rw [htext, parse_eq_ok_iff_reads, byteLength_append]
  refine ⟨_, _, hall, hreads.or hreads'' _, ?_⟩
  rw [hreads.close_or hreads'', ← Query.Chain.relocate_close]
  rfl

/-- **Two queries in parentheses with `AND` between them.** -/
theorem parse_and_groups (h : (c.withDepth d).parse source = .ok q)
    (h' : (c.withDepth d).parse source' = .ok q') :
    (c.withDepth (d + 1)).parse ("(" ++ source ++ ") AND (" ++ source' ++ ")") =
      .ok (.and [.group (q.shift 1),
        .group (q'.shift (byteLength ("(" ++ source ++ ") AND (")))]) := by
  obtain ⟨tokens, chain, hscans, hreads, rfl⟩ := parse_eq_ok_iff_reads.mp h
  obtain ⟨tokens', chain', hscans', hreads', rfl⟩ := parse_eq_ok_iff_reads.mp h'
  have htext : "(" ++ source ++ ") AND (" ++ source' ++ ")" =
      "(" ++ source ++ ")" ++ (" " ++ ("AND" ++ " " ++ ("(" ++ source' ++ ")" ++ ""))) := by
    rw [String.append_empty]
    simp only [String.append_assoc]
    rfl
  have hbytes : byteLength ("(" ++ source ++ ") AND (") =
      byteLength source + 2 + (1 + (byteLength "AND" + 1 + 1)) := by
    have hwords : byteLength "(" = 1 ∧ byteLength ") AND (" = 7 ∧ byteLength "AND" = 3 := by decide
    rw [byteLength_append, byteLength_append]
    omega
  have hscans'' := (hscans'.group_append .empty).keyword_append "AND" .and (by decide)
  have hall := hscans.group_append hscans''.space_append
  simp only [List.map_cons, List.map_append, List.map_nil, List.map_map, Token.comp_shift] at hall
  have hreads'' := hreads'.shift (byteLength source + 2 + (1 + (byteLength "AND" + 1 + 1)))
  rw [htext, parse_eq_ok_iff_reads, hbytes]
  refine ⟨_, _, hall, (hreads.shift 1).and hreads'' _ _ _ _ _, ?_⟩
  rw [← Query.Chain.relocate_close, ← Query.Chain.relocate_close]
  rfl

/-- **A query in parentheses after `NOT`.** -/
theorem parse_not_group (h : (c.withDepth d).parse source = .ok q) :
    (c.withDepth (d + 2)).parse ("NOT (" ++ source ++ ")") = .ok (.not (.group (q.shift 5))) := by
  obtain ⟨tokens, chain, hscans, hreads, rfl⟩ := parse_eq_ok_iff_reads.mp h
  have htext : "NOT (" ++ source ++ ")" = "NOT" ++ " " ++ ("(" ++ source ++ ")" ++ "") := by
    rw [String.append_empty]
    simp only [← String.append_assoc]
    rfl
  have hall := (hscans.group_append .empty).keyword_append "NOT" .not (by decide)
  simp only [List.map_append, List.map_cons, List.map_nil, List.map_map, Token.comp_shift] at hall
  rw [htext, parse_eq_ok_iff_reads]
  refine ⟨_, _, hall, (hreads.shift 5).not _ _ _, ?_⟩
  rw [← Query.Chain.relocate_close]
  rfl

/-- **Queries are put together as text.** If texts are queries within a limit of nesting, then so
are two of them with `OR` between them, with the operands of both; two of them in parentheses with
`AND` between them, one level deeper; and one in parentheses after `NOT`, two levels deeper. Each part
keeps its tree, moved to where its text starts. -/
theorem parse_composed (c : Compiler) (d : Nat) (source source₁ source₂ : String)
    (q q₁ q₂ : Query) (h : (c.withDepth d).parse source = .ok q)
    (h₁ : (c.withDepth d).parse source₁ = .ok q₁) (h₂ : (c.withDepth d).parse source₂ = .ok q₂) :
    (c.withDepth d).parse (source₁ ++ " OR " ++ source₂) =
        .ok (.or (q₁.disjuncts ++ (q₂.shift (byteLength (source₁ ++ " OR "))).disjuncts)) ∧
      (c.withDepth (d + 1)).parse ("(" ++ source₁ ++ ") AND (" ++ source₂ ++ ")") =
        .ok (.and [.group (q₁.shift (byteLength "(")),
          .group (q₂.shift (byteLength ("(" ++ source₁ ++ ") AND (")))]) ∧
      (c.withDepth (d + 2)).parse ("NOT (" ++ source ++ ")") =
        .ok (.not (.group (q.shift (byteLength "NOT (")))) :=
  ⟨parse_or h₁ h₂, parse_and_groups h₁ h₂, parse_not_group h⟩

/-- Two chains of `OR`, one with a character of two bytes and one at the limit of nesting. -/
theorem parse_composed_at_limit :
    let source₁ := "a = 'é' || NOT b EXISTS"
    let source₂ := "c IN [1] OR d < 2"
    ∃ q₁ q₂, (({} : Compiler).withDepth 1).parse source₁ = .ok q₁ ∧ q₁.disjuncts.length = 2 ∧
      (({} : Compiler).withDepth 1).parse source₂ = .ok q₂ ∧ q₂.disjuncts.length = 2 ∧
      (({} : Compiler).withDepth 1).parse (source₁ ++ " OR " ++ source₂) =
        .ok (.or (q₁.disjuncts ++ (q₂.shift 28).disjuncts)) ∧
      (({} : Compiler).withDepth 2).parse ("(" ++ source₁ ++ ") AND (" ++ source₂ ++ ")") =
        .ok (.and [.group (q₁.shift 1), .group (q₂.shift 32)]) ∧
      (({} : Compiler).withDepth 3).parse ("NOT (" ++ source₁ ++ ")") =
        .ok (.not (.group (q₁.shift 5))) := by
  intro source₁ source₂
  obtain ⟨q₁, h₁, hlength₁⟩ := Except.exists_of_toOption_any
    (x := (({} : Compiler).withDepth 1).parse source₁) (p := fun q => q.disjuncts.length = 2)
    (by decide +kernel)
  obtain ⟨q₂, h₂, hlength₂⟩ := Except.exists_of_toOption_any
    (x := (({} : Compiler).withDepth 1).parse source₂) (p := fun q => q.disjuncts.length = 2)
    (by decide +kernel)
  have hbytes : byteLength (source₁ ++ " OR ") = 28 ∧
      byteLength ("(" ++ source₁ ++ ") AND (") = 32 := by decide
  have hcomposed := parse_composed {} 1 source₁ source₁ source₂ q₁ q₁ q₂ h₁ h₁ h₂
  rw [hbytes.1, hbytes.2] at hcomposed
  exact ⟨q₁, q₂, h₁, of_decide_eq_true hlength₁, h₂, of_decide_eq_true hlength₂, hcomposed⟩

end Compiler

end QueryFilter
