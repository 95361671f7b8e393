import QueryFilter.Proofs.Filter.Emission
import QueryFilter.Proofs.Query.Source

/-!
# How deep filters are nested

Everything that walks through a filter goes as deep as its arrays and documents are nested, and the
limit on the nesting of queries is the only guard on that. A level of the query can take more than
one level of the filter. A connective takes two, an array and the documents in it. Inside one pair
of parentheses there can be a chain of `OR` with a chain of `AND` in it, so a group takes up to
four, while `NOT` takes two and an array one. The two chains outside of all parentheses are not
counted by the limit, nor are the document of a comparison and that of its operator: these make six
levels more.

So the bound depends on what binds how tightly, and it is proved for every query together with the
*margin* that its outermost connective needs.

## Main definitions

* `Value.nesting` — how many arrays and documents are open at the deepest place
* `Query.margin` — what a query can take beyond four levels for each of its own

## Main results

* `Document.nesting_connective_le`, `Document.nesting_conjoin_le` — filters that are combined
* `Query.nesting_of_emit` — the filter of a canonical query
* `Compiler.nesting_le_of_emit` — the filter of a text, by the limit that it was read with
-/

namespace QueryFilter

/-! ### Nesting of values -/

namespace Value

mutual

/-- How many arrays and documents are open at the deepest place of a value. -/
def nesting : Value → Nat
  | array items => 1 + maxNesting items
  | document entries => 1 + entriesNesting entries
  | _ => 0

/-- The nesting of the most deeply nested item. -/
def maxNesting : List Value → Nat
  | [] => 0
  | v :: vs => max v.nesting (maxNesting vs)

/-- The nesting of the most deeply nested entry. -/
def entriesNesting : List (String × Value) → Nat
  | [] => 0
  | (_, v) :: rest => max v.nesting (entriesNesting rest)

end

theorem nesting_array_le_iff {items : List Value} {n : Nat} :
    (array items).nesting ≤ n + 1 ↔ ∀ v ∈ items, v.nesting ≤ n := by
  rw [nesting, Nat.add_comm, Nat.add_le_add_iff_right]
  induction items with
  | nil => simp [maxNesting]
  | cons v vs ih => rw [maxNesting, Nat.max_le, ih, List.forall_mem_cons]

theorem nesting_document_le_iff {entries : List (String × Value)} {n : Nat} :
    (document entries).nesting ≤ n + 1 ↔ ∀ e ∈ entries, e.2.nesting ≤ n := by
  rw [nesting, Nat.add_comm, Nat.add_le_add_iff_right]
  induction entries with
  | nil => simp [entriesNesting]
  | cons e es ih => rw [entriesNesting, Nat.max_le, ih, List.forall_mem_cons]

theorem nesting_singleton (key : String) (v : Value) :
    (document [(key, v)]).nesting = v.nesting + 1 := by
  rw [nesting, entriesNesting, entriesNesting, Nat.max_zero, Nat.add_comm]

end Value

/-- An array of a literal is an array of its value. -/
theorem Literal.nesting_toValue_le {v : Literal} {n : Nat} (h : v.nesting ≤ n) :
    v.toValue.nesting ≤ n := by
  induction v generalizing n with
  | array items ih =>
    obtain ⟨n, rfl⟩ : ∃ m, n = m + 1 := Nat.exists_eq_add_one.mpr (by rw [nesting] at h; omega)
    rw [toValue, toValues_eq_map, Value.nesting_array_le_iff, List.forall_mem_map]
    exact fun v hv => ih v hv (nesting_array_le_iff.mp h v hv)
  | number x =>
    cases x with
    | int _ | float _ => exact Nat.zero_le _
  | _ => exact Nat.zero_le _

/-- A comparison takes its own document, that of its operator, and the arrays of its literal. -/
theorem Comparison.nesting_operand_le (c : Comparison) :
    c.operand.nesting ≤ c.value.nesting + 1 := by
  have hvalue := Literal.nesting_toValue_le (Nat.le_refl c.value.nesting)
  rw [operand]
  split
  · exact Nat.le_succ_of_le hvalue
  · rw [Value.nesting_singleton]
    exact Nat.succ_le_succ hvalue

/-! ### Filters that are combined -/

namespace Document

/-- A connective takes an array and the documents in it. -/
theorem nesting_connective_le {docs : List Document} {n : Nat}
    (h : ∀ doc ∈ docs, (Value.document doc).nesting ≤ n) (key : String) :
    (Value.document [(key, .array (docs.map .document))]).nesting ≤ n + 2 := by
  rw [Value.nesting_singleton, Nat.add_le_add_iff_right, Value.nesting_array_le_iff]
  exact List.forall_mem_map.mpr h

/-- So does a conjunction at most; where it is merged, it takes no more than its operands. -/
theorem nesting_conjoin_le {docs : List Document} {n : Nat}
    (h : ∀ doc ∈ docs, (Value.document doc).nesting ≤ n) (merge : Bool) :
    (Value.document (conjoin merge docs)).nesting ≤ n + 2 := by
  rcases conjoin_cases merge docs with ⟨-, hmerged⟩ | harray
  · rw [hmerged, Value.nesting_document_le_iff]
    intro e he
    obtain ⟨doc, hdoc, he⟩ := List.mem_flatten.mp he
    have hroom : (Value.document doc).nesting ≤ n + 1 + 1 := by
      have := h doc hdoc
      omega
    exact Value.nesting_document_le_iff.mp hroom e he
  · rw [harray]
    exact nesting_connective_le h "$and"

end Document

/-! ### Filters of queries -/

namespace Query

/-- What the filter of a query can take beyond four levels for each level of the query: the two
documents of a comparison, and two levels for each chain around it that no parentheses enclose. -/
def margin : Query → Nat
  | comparison _ | not _ | group _ => 2
  | and _ => 4
  | or _ => 6

theorem margin_of_isOperand {q : Query} (h : q.isOperand) : q.margin = 2 := by
  cases q with
  | and _ | or _ => cases h
  | _ => rfl

theorem margin_le_of_isDisjunction {q : Query} (h : q.isDisjunction = false) : q.margin ≤ 4 := by
  cases q with
  | or _ => cases h
  | _ => simp [margin]

theorem margin_le (q : Query) : q.margin ≤ 6 := by
  cases q with
  | _ => simp [margin]

/-- **The filter of a canonical query** takes four levels for each level of the query, and the
margin. -/
theorem nesting_of_emit {merge : Bool} {q : Query} {doc : Document} (h : q.emit merge = .ok doc)
    (hq : q.isCanonical) : (Value.document doc).nesting ≤ 4 * q.nesting + q.margin := by
  -- the operands of a chain, whose margins are bounded by what a chain allows in it
  have hall : ∀ {operands : List Query} {docs : List Document} {m : Nat},
      List.Forall₂ (fun q doc => q.isCanonical →
        (Value.document doc).nesting ≤ 4 * q.nesting + q.margin) operands docs →
      (∀ q ∈ operands, q.isCanonical) → (∀ q ∈ operands, q.margin ≤ m) →
        ∀ doc ∈ docs, (Value.document doc).nesting ≤ 4 * maxNesting operands + m := by
    intro operands docs m hdocs hcanonical hmargin doc hdoc
    obtain ⟨q, hmem, hnesting⟩ := exists_mem_of_forall₂ hdocs hdoc
    have hle := maxNesting_le_iff.mp (Nat.le_refl (maxNesting operands)) q hmem
    have := hnesting (hcanonical q hmem)
    have := hmargin q hmem
    omega
  refine emit_induction (P := fun q doc => q.isCanonical →
    (Value.document doc).nesting ≤ 4 * q.nesting + q.margin) ?_ ?_ ?_ ?_ ?_ h hq
  · intro c _ _
    have := c.nesting_operand_le
    rw [Value.nesting_singleton, nesting, margin]
    omega
  · intro operands docs hdocs hand
    obtain ⟨-, hoperand, hcanonical⟩ := isCanonical_and_iff.mp hand
    exact Document.nesting_conjoin_le (hall hdocs hcanonical
      fun q hmem => Nat.le_of_eq (margin_of_isOperand (hoperand q hmem))) merge
  · intro operands docs hdocs hor
    obtain ⟨-, hdisjunct, hcanonical⟩ := isCanonical_or_iff.mp hor
    exact Document.nesting_connective_le (hall hdocs hcanonical
      fun q hmem => margin_le_of_isDisjunction (hdisjunct q hmem)) "$or"
  · intro operand doc hdoc hnot
    obtain ⟨hoperand, hcanonical⟩ := Bool.and_eq_true_iff.mp hnot
    have hinner := hdoc hcanonical
    rw [margin_of_isOperand hoperand] at hinner
    have hone : ∀ d ∈ [doc], (Value.document d).nesting ≤ 4 * operand.nesting + 2 := by
      simpa using hinner
    have houter := Document.nesting_connective_le hone "$nor"
    rw [nesting, margin]
    exact Nat.le_trans houter (by omega)
  · intro content doc hdoc hcontent
    have hinner := hdoc hcontent
    have := content.margin_le
    rw [nesting, margin]
    omega

end Query

namespace Compiler

/-- **The limit bounds the filter.** A document that is emitted for a text has at most four levels
of nesting for each level that the limit allows, and six more. -/
theorem nesting_le_of_emit (c : Compiler) (source : String) (doc : Document)
    (h : c.emit source = .ok doc) :
    (Value.document doc).nesting ≤ 4 * c.settings.maxDepth + 6 := by
  obtain ⟨q, hparse, hemit⟩ := emit_eq_ok_iff.mp h
  obtain ⟨tokens, stop, -, hspells⟩ := spells_of_parse hparse
  have hnesting := Query.nesting_of_emit hemit hspells.canonical
  have hmargin := q.margin_le
  have hlimit := hspells.nesting_le
  omega

/-- With one level allowed, a chain of `OR` with a chain of `AND` in it, once outside of the
parentheses and once inside, has a filter of all ten levels: the conjunctions cannot be merged. -/
theorem nesting_of_nested_chains :
    let c : Compiler := { settings := { maxDepth := 1 } }
    let source := "(a > 1 AND a < 2 OR b = 1) AND (a = 3 OR b = 4) OR c = 5"
    ∃ doc, c.emit source = .ok doc ∧ (Value.document doc).nesting = 10 ∧
      (Value.document doc).nesting ≤ 4 * c.settings.maxDepth + 6 := by
  intro c source
  obtain ⟨doc, hdoc, hnesting⟩ := Except.exists_of_toOption_any (x := c.emit source)
    (p := fun doc => (Value.document doc).nesting = 10) (by decide +kernel)
  exact ⟨doc, hdoc, of_decide_eq_true hnesting, nesting_le_of_emit c source doc hdoc⟩

end Compiler

end QueryFilter
