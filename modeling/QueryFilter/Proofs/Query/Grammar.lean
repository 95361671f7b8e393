import QueryFilter.Proofs.Query.FieldPath

/-!
# The grammar of queries, as trees

The grammar is stated without a parser: which trees a query can have, and which tokens spell a tree.
A tree is *canonical* if chains have at least two operands, an operand of `OR` is no chain of `OR`,
and an operand of `AND` or of `NOT` is no chain at all. What binds less tightly stands in a group,
so a canonical tree can be spelled without adding any parentheses.

Spelling forgets where the tokens stood, so two trees that are spelled alike can differ in their
spans.

## Main definitions

* `Literal.render`, `Comparison.render`, `Query.render` — the tokens that spell a tree
* `Literal.nesting`, `Query.nesting` — the deepest stack of negations, groups and arrays
* `Query.isCanonical` — the trees of queries
* `Query.comparisons` — the leaves of a tree from left to right
* `Query.Spells` — a tree that the grammar allows for given tokens and a limit of nesting
-/

namespace QueryFilter

/-! ### Induction on trees -/

/-- Induction on literals: an array has the hypothesis for all of its items. -/
@[elab_as_elim, induction_eliminator]
theorem Literal.induction {motive : Literal → Prop} (string : ∀ text, motive (.string text))
    (number : ∀ n, motive (.number n)) (boolean : ∀ b, motive (.boolean b)) (null : motive .null)
    (array : ∀ items, (∀ v ∈ items, motive v) → motive (.array items))
    (marker : ∀ kind raw span, motive (.marker kind raw span)) (v : Literal) : motive v :=
  @Literal.rec motive (fun vs => ∀ v ∈ vs, motive v) string number boolean null array marker
    (fun _ h => absurd h List.not_mem_nil) (fun _ _ hv hvs => List.forall_mem_cons.mpr ⟨hv, hvs⟩) v

/-- Induction on queries: a chain has the hypothesis for all of its operands. -/
@[elab_as_elim, induction_eliminator]
theorem Query.induction {motive : Query → Prop} (comparison : ∀ c, motive (.comparison c))
    (and : ∀ operands, (∀ q ∈ operands, motive q) → motive (.and operands))
    (or : ∀ operands, (∀ q ∈ operands, motive q) → motive (.or operands))
    (not : ∀ operand, motive operand → motive (.not operand))
    (group : ∀ content, motive content → motive (.group content)) (q : Query) : motive q :=
  @Query.rec motive (fun qs => ∀ q ∈ qs, motive q) comparison and or not group
    (fun _ h => absurd h List.not_mem_nil) (fun _ _ hq hqs => List.forall_mem_cons.mpr ⟨hq, hqs⟩) q

/-! ### Separators

A chain or an array that is read from left to right has a separator after every part but the last,
or before every part but the first. -/

theorem intercalate_concat {α : Type} (separator : List α) (parts : List (List α))
    (last : List α) :
    separator.intercalate (parts ++ [last]) = parts.flatMap (· ++ separator) ++ last := by
  induction parts with
  | nil => simp
  | cons part parts ih =>
    rw [List.cons_append, List.intercalate_cons_of_ne_nil (by simp), ih, List.flatMap_cons,
      ← List.append_assoc]

theorem intercalate_cons {α : Type} (separator first : List α) (parts : List (List α)) :
    separator.intercalate (first :: parts) = first ++ parts.flatMap (separator ++ ·) := by
  induction parts generalizing first with
  | nil => simp
  | cons part parts ih =>
    rw [List.intercalate_cons_cons, ih, List.flatMap_cons, List.append_assoc, List.append_assoc]

/-- Every part stands in the whole. -/
theorem subset_intercalate {α : Type} {separator part : List α} {parts : List (List α)}
    (h : part ∈ parts) : part ⊆ separator.intercalate parts := by
  obtain ⟨first, more, rfl⟩ := List.exists_cons_of_ne_nil (List.ne_nil_of_mem h)
  rw [intercalate_cons]
  rcases List.mem_cons.mp h with rfl | h
  · exact List.subset_append_left _ _
  · intro a ha
    exact List.mem_append_right _
      (List.mem_flatMap.mpr ⟨part, h, List.mem_append_right _ ha⟩)

/-! ### Spelling -/

namespace Literal

mutual

/-- The tokens that spell a literal. -/
def render : Literal → List TokenKind
  | string text => [.string text]
  | number n => [.number n]
  | boolean b => [.boolean b]
  | null => [.null]
  | array items => .leftBracket :: [.comma].intercalate (renders items) ++ [.rightBracket]
  | marker kind raw _ => [.marker kind raw]

/-- The tokens that spell each of the literals. -/
def renders : List Literal → List (List TokenKind)
  | [] => []
  | v :: vs => v.render :: renders vs

end

@[simp] theorem renders_eq_map (vs : List Literal) : renders vs = vs.map render := by
  induction vs with
  | nil => rfl
  | cons v vs ih => rw [renders, ih, List.map_cons]

theorem render_array (items : List Literal) : (array items).render =
    .leftBracket :: [.comma].intercalate (items.map render) ++ [.rightBracket] := by
  rw [render, renders_eq_map]

end Literal

/-- The tokens that spell an operator. Presence is a matter of the literal too, which is not spelled
after it. -/
def CompareOp.render : CompareOp → List TokenKind
  | equal => [.equal]
  | notEqual => [.notEqual]
  | greater => [.greater]
  | greaterEqual => [.greaterEqual]
  | less => [.less]
  | lessEqual => [.lessEqual]
  | member => [.member]
  | notMember => [.not, .member]
  | pattern => [.pattern]
  | present => [.present]

/-- The tokens that spell a comparison. -/
def Comparison.render (c : Comparison) : List TokenKind :=
  .field c.field.dotted ::
    match c.op, c.value with
    | .present, .boolean false => [.not, .present]
    | .present, _ => [.present]
    | op, value => op.render ++ value.render

namespace Query

mutual

/-- The tokens that spell a query. -/
def render : Query → List TokenKind
  | comparison c => c.render
  | and operands => [.and].intercalate (renders operands)
  | or operands => [.or].intercalate (renders operands)
  | not operand => .not :: operand.render
  | group content => .leftParen :: content.render ++ [.rightParen]

/-- The tokens that spell each of the queries. -/
def renders : List Query → List (List TokenKind)
  | [] => []
  | q :: qs => q.render :: renders qs

end

@[simp] theorem renders_eq_map (qs : List Query) : renders qs = qs.map render := by
  induction qs with
  | nil => rfl
  | cons q qs ih => rw [renders, ih, List.map_cons]

theorem render_and (operands : List Query) :
    (and operands).render = [.and].intercalate (operands.map render) := by
  rw [render, renders_eq_map]

theorem render_or (operands : List Query) :
    (or operands).render = [.or].intercalate (operands.map render) := by
  rw [render, renders_eq_map]

/-- A chain of one operand is spelled like the operand, so `conjunction` is spelled like `and`. -/
theorem render_conjunction (qs : List Query) :
    (conjunction qs).render = [.and].intercalate (qs.map render) := by
  rcases qs with _ | ⟨q, _ | ⟨r, more⟩⟩
  · rfl
  · rw [List.map_singleton, List.intercalate_singleton]
    rfl
  · exact render_and _

theorem render_disjunction (qs : List Query) :
    (disjunction qs).render = [.or].intercalate (qs.map render) := by
  rcases qs with _ | ⟨q, _ | ⟨r, more⟩⟩
  · rfl
  · rw [List.map_singleton, List.intercalate_singleton]
    rfl
  · exact render_or _

end Query

/-! ### Nesting -/

namespace Literal

mutual

/-- How many arrays are open at the deepest place of a literal. -/
def nesting : Literal → Nat
  | array items => 1 + maxNesting items
  | _ => 0

/-- The nesting of the most deeply nested literal. -/
def maxNesting : List Literal → Nat
  | [] => 0
  | v :: vs => max v.nesting (maxNesting vs)

end

theorem maxNesting_le_iff {vs : List Literal} {n : Nat} :
    maxNesting vs ≤ n ↔ ∀ v ∈ vs, v.nesting ≤ n := by
  induction vs with
  | nil => simp [maxNesting]
  | cons v vs ih => rw [maxNesting, Nat.max_le, ih, List.forall_mem_cons]

theorem nesting_array_le_iff {items : List Literal} {n : Nat} :
    (array items).nesting ≤ n + 1 ↔ ∀ v ∈ items, v.nesting ≤ n := by
  rw [nesting, Nat.add_comm, Nat.add_le_add_iff_right, maxNesting_le_iff]

end Literal

namespace Query

mutual

/-- How many negations, groups and arrays are open at the deepest place of a query. -/
def nesting : Query → Nat
  | comparison c => c.value.nesting
  | and operands => maxNesting operands
  | or operands => maxNesting operands
  | not operand => 1 + operand.nesting
  | group content => 1 + content.nesting

/-- The nesting of the most deeply nested query. -/
def maxNesting : List Query → Nat
  | [] => 0
  | q :: qs => max q.nesting (maxNesting qs)

end

theorem maxNesting_le_iff {qs : List Query} {n : Nat} :
    maxNesting qs ≤ n ↔ ∀ q ∈ qs, q.nesting ≤ n := by
  induction qs with
  | nil => simp [maxNesting]
  | cons q qs ih => rw [maxNesting, Nat.max_le, ih, List.forall_mem_cons]

theorem nesting_conjunction_le {qs : List Query} {n : Nat} (h : ∀ q ∈ qs, q.nesting ≤ n) :
    (conjunction qs).nesting ≤ n := by
  rcases qs with _ | ⟨q, _ | ⟨r, more⟩⟩
  · exact Nat.zero_le n
  · exact h q List.mem_cons_self
  · exact maxNesting_le_iff.mpr h

theorem nesting_disjunction_le {qs : List Query} {n : Nat} (h : ∀ q ∈ qs, q.nesting ≤ n) :
    (disjunction qs).nesting ≤ n := by
  rcases qs with _ | ⟨q, _ | ⟨r, more⟩⟩
  · exact Nat.zero_le n
  · exact h q List.mem_cons_self
  · exact maxNesting_le_iff.mpr h

end Query

/-! ### Canonical trees -/

/-- A comparison that can be spelled: its field is a proper path, and presence is asked of a
boolean. -/
def Comparison.isCanonical (c : Comparison) : Bool :=
  c.field.isProper &&
    match c.op, c.value with
    | .present, .boolean _ => true
    | .present, _ => false
    | _, _ => true

namespace Query

/-- A chain of `OR`. -/
def isDisjunction : Query → Bool
  | or _ => true
  | _ => false

/-- A query that can be an operand of `AND` and of `NOT`: no chain. -/
def isOperand : Query → Bool
  | and _ => false
  | or _ => false
  | _ => true

mutual

/-- Whether a tree is the tree of a query. -/
def isCanonical : Query → Bool
  | comparison c => c.isCanonical
  | and operands => 2 ≤ operands.length && operands.all isOperand && areCanonical operands
  | or operands =>
    2 ≤ operands.length && operands.all (!·.isDisjunction) && areCanonical operands
  | not operand => operand.isOperand && operand.isCanonical
  | group content => content.isCanonical

/-- Whether all trees are trees of queries. -/
def areCanonical : List Query → Bool
  | [] => true
  | q :: qs => q.isCanonical && areCanonical qs

end

@[simp] theorem areCanonical_iff {qs : List Query} :
    areCanonical qs ↔ ∀ q ∈ qs, q.isCanonical := by
  induction qs with
  | nil => simp [areCanonical]
  | cons q qs ih => rw [areCanonical, Bool.and_eq_true, ih, List.forall_mem_cons]

theorem isCanonical_and_iff {operands : List Query} : (and operands).isCanonical ↔
    2 ≤ operands.length ∧ (∀ q ∈ operands, q.isOperand) ∧ ∀ q ∈ operands, q.isCanonical := by
  rw [isCanonical, Bool.and_eq_true, Bool.and_eq_true, areCanonical_iff, decide_eq_true_iff,
    List.all_eq_true, and_assoc]

theorem isCanonical_or_iff {operands : List Query} : (or operands).isCanonical ↔
    2 ≤ operands.length ∧ (∀ q ∈ operands, q.isDisjunction = false) ∧
      ∀ q ∈ operands, q.isCanonical := by
  rw [isCanonical, Bool.and_eq_true, Bool.and_eq_true, areCanonical_iff, decide_eq_true_iff,
    List.all_eq_true, and_assoc]
  simp only [Bool.not_eq_true']

theorem isDisjunction_of_isOperand {q : Query} (h : q.isOperand) : q.isDisjunction = false := by
  cases q with
  | or _ => cases h
  | _ => rfl

/-- Operands of `AND` that are not empty make a canonical operand of `OR`. -/
theorem isCanonical_conjunction {qs : List Query} (hne : qs ≠ []) (hop : ∀ q ∈ qs, q.isOperand)
    (hqs : ∀ q ∈ qs, q.isCanonical) :
    (conjunction qs).isCanonical ∧ (conjunction qs).isDisjunction = false := by
  match qs, hne with
  | [q], _ => exact ⟨hqs q List.mem_cons_self,
      isDisjunction_of_isOperand (hop q List.mem_cons_self)⟩
  | q :: r :: more, _ =>
    exact ⟨isCanonical_and_iff.mpr ⟨by simp only [List.length_cons]; omega, hop, hqs⟩, rfl⟩

theorem isCanonical_disjunction {qs : List Query} (hne : qs ≠ [])
    (hop : ∀ q ∈ qs, q.isDisjunction = false) (hqs : ∀ q ∈ qs, q.isCanonical) :
    (disjunction qs).isCanonical := by
  match qs, hne with
  | [q], _ => exact hqs q List.mem_cons_self
  | q :: r :: more, _ =>
    exact isCanonical_or_iff.mpr ⟨by simp only [List.length_cons]; omega, hop, hqs⟩

end Query

/-! ### Leaves -/

namespace Query

mutual

/-- The comparisons of a query from left to right. -/
def comparisons : Query → List Comparison
  | comparison c => [c]
  | and operands => allComparisons operands
  | or operands => allComparisons operands
  | not operand => operand.comparisons
  | group content => content.comparisons

/-- The comparisons of several queries from left to right. -/
def allComparisons : List Query → List Comparison
  | [] => []
  | q :: qs => q.comparisons ++ allComparisons qs

end

@[simp] theorem allComparisons_eq_flatMap (qs : List Query) :
    allComparisons qs = qs.flatMap comparisons := by
  induction qs with
  | nil => rfl
  | cons q qs ih => rw [allComparisons, ih, List.flatMap_cons]

theorem mem_allComparisons {qs : List Query} {c : Comparison} :
    c ∈ allComparisons qs ↔ ∃ q ∈ qs, c ∈ q.comparisons := by
  rw [allComparisons_eq_flatMap, List.mem_flatMap]

/-- The leaves of a canonical tree are canonical. -/
theorem isCanonical_of_mem_comparisons {q : Query} {c : Comparison} (hq : q.isCanonical)
    (hc : c ∈ q.comparisons) : c.isCanonical := by
  have hchain : ∀ operands : List Query,
      (∀ q ∈ operands, q.isCanonical → c ∈ q.comparisons → c.isCanonical) →
        (∀ q ∈ operands, q.isCanonical) → c ∈ allComparisons operands → c.isCanonical := by
    intro operands ih hoperands hmem
    obtain ⟨q, hq, hcq⟩ := mem_allComparisons.mp hmem
    exact ih q hq (hoperands q hq) hcq
  induction q with
  | comparison d =>
    rw [comparisons, List.mem_singleton] at hc
    rw [hc]
    exact hq
  | and operands ih => exact hchain operands ih (isCanonical_and_iff.mp hq).2.2 hc
  | or operands ih => exact hchain operands ih (isCanonical_or_iff.mp hq).2.2 hc
  | not operand ih => exact ih (Bool.and_eq_true_iff.mp hq).2 hc
  | group content ih => exact ih hq hc

/-- The tokens of a leaf are among those of the tree. -/
theorem render_subset_of_mem_comparisons {q : Query} {c : Comparison} (hc : c ∈ q.comparisons) :
    c.render ⊆ q.render := by
  have hchain : ∀ (separator : List TokenKind) (operands : List Query),
      (∀ q ∈ operands, c ∈ q.comparisons → c.render ⊆ q.render) →
        c ∈ allComparisons operands → c.render ⊆ separator.intercalate (operands.map render) := by
    intro separator operands ih hmem
    obtain ⟨q, hq, hcq⟩ := mem_allComparisons.mp hmem
    exact List.Subset.trans (ih q hq hcq) (subset_intercalate (List.mem_map_of_mem hq))
  induction q with
  | comparison d =>
    rw [comparisons, List.mem_singleton] at hc
    rw [hc, render]
    exact fun _ h => h
  | and operands ih =>
    rw [render_and]
    exact hchain [.and] operands ih hc
  | or operands ih =>
    rw [render_or]
    exact hchain [.or] operands ih hc
  | not operand ih => exact List.Subset.trans (ih hc) (List.subset_cons_self _ _)
  | group content ih =>
    exact List.Subset.trans (ih hc)
      (List.Subset.trans (List.subset_append_left _ _) (List.subset_cons_self _ _))

/-! ### Trees that the grammar allows -/

/-- A canonical tree that the given tokens spell, nested no deeper than the limit. -/
structure Spells (limit : Nat) (kinds : List TokenKind) (q : Query) : Prop where
  /-- The tree is the tree of a query. -/
  canonical : q.isCanonical
  /-- The tokens spell the tree. -/
  render_eq : q.render = kinds
  /-- No place of the tree is nested too deep. -/
  nesting_le : q.nesting ≤ limit

end Query

end QueryFilter
