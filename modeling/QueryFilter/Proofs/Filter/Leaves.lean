import QueryFilter.Proofs.Filter.Emission
import QueryFilter.Proofs.Filter.Revival
import QueryFilter.Proofs.Query.Source

/-!
# The leaves of a filter

The leaves of a value are the values in it that are neither arrays nor documents, from left to
right. A query is emitted with the leaves of its literals and no others, in their order; reviving
changes leaves and nothing else. So each leaf of a compiled filter comes from a token of the text.

## Main definitions

* `Value.leaves` — the values in a value that contain no others
* `Value.IsSpelled` — a leaf that one of the given tokens spells

## Main results

* `Query.leaves_of_emit` — the leaves of a document are those of the query's literals
* `Reviver.exists_leaf_of_revive` — each leaf of a revived value is a revived leaf
* `Query.isSpelled_of_mem_leaves` — each leaf of a tree is spelled by one of its tokens
-/

namespace QueryFilter

namespace Value

mutual

/-- The values in a value that contain no others, from left to right. -/
def leaves : Value → List Value
  | array items => itemLeaves items
  | document entries => entryLeaves entries
  | v => [v]

/-- The leaves of several values from left to right. -/
def itemLeaves : List Value → List Value
  | [] => []
  | v :: vs => v.leaves ++ itemLeaves vs

/-- The leaves of several entries from left to right. -/
def entryLeaves : List (String × Value) → List Value
  | [] => []
  | (_, v) :: rest => v.leaves ++ entryLeaves rest

end

theorem leaves_array (items : List Value) : (array items).leaves = items.flatMap leaves := by
  rw [leaves]
  induction items with
  | nil => rfl
  | cons v vs ih => rw [itemLeaves, ih, List.flatMap_cons]

theorem leaves_document (entries : List (String × Value)) :
    (document entries).leaves = entries.flatMap fun e => e.2.leaves := by
  rw [leaves]
  induction entries with
  | nil => rfl
  | cons e es ih => rw [entryLeaves, ih, List.flatMap_cons]

end Value

/-! ### Emission -/

namespace Document

/-- The leaves of a document from left to right. -/
def leaves (doc : Document) : List Value := (Value.document doc).leaves

theorem leaves_eq_flatMap (doc : Document) : leaves doc = doc.flatMap fun e => e.2.leaves :=
  Value.leaves_document doc

theorem leaves_documents (docs : List Document) :
    (Value.array (docs.map .document)).leaves = docs.flatMap leaves := by
  rw [Value.leaves_array, List.flatMap_map]
  rfl

theorem leaves_singleton (key : String) (v : Value) : leaves [(key, v)] = v.leaves := by
  rw [leaves_eq_flatMap, List.flatMap_singleton]

theorem leaves_flatten (docs : List Document) : leaves docs.flatten = docs.flatMap leaves := by
  rw [leaves_eq_flatMap, List.flatMap_def, List.map_flatten, List.flatten_flatten, List.map_map,
    List.flatMap_def]
  refine congrArg List.flatten (List.map_congr_left fun doc _ => ?_)
  rw [leaves_eq_flatMap, List.flatMap_def]
  rfl

end Document

namespace Query

/-- The leaves of the literals of a query from left to right. -/
def leaves (q : Query) : List Value := q.comparisons.flatMap fun c => c.value.toValue.leaves

/-- **The leaves of a document are those of the literals**, in the same order. -/
theorem leaves_of_emit {merge : Bool} {q : Query} {doc : Document} (h : q.emit merge = .ok doc) :
    doc.leaves = q.leaves := by
  have hconnective : ∀ key ∈ Document.connectives, ∀ docs : List Document,
      Document.leaves [(key, .array (docs.map .document))] = docs.flatMap Document.leaves := by
    intro key _ docs
    rw [Document.leaves_singleton, Document.leaves_documents]
  rw [view_of_emit Document.leaves_flatten hconnective h, leaves]
  refine List.flatMap_congr fun c _ => ?_
  rw [Document.leaves_singleton, Comparison.operand]
  split
  · rfl
  · exact Document.leaves_singleton _ _

end Query

/-! ### Reviving -/

namespace Reviver

/-- Each leaf of a revived value is what a leaf of the value was revived to, as decoders give
leaves. -/
theorem exists_leaf_of_revive {v w leaf : Value} (h : standard.revive v = .ok w)
    (hleaf : leaf ∈ w.leaves) : ∃ old ∈ v.leaves, standard.revive old = .ok leaf := by
  induction v generalizing w with
  | array items ih =>
    obtain ⟨revived, hall, rfl⟩ := revive_array_iff.mp h
    rw [Value.leaves_array] at hleaf ⊢
    obtain ⟨u, hu, hleaf⟩ := List.mem_flatMap.mp hleaf
    obtain ⟨v, hv, hvu⟩ := exists_mem_of_forall₂ hall hu
    obtain ⟨old, hold, hrevive⟩ := ih v hv hvu hleaf
    exact ⟨old, List.mem_flatMap.mpr ⟨v, hv, hold⟩, hrevive⟩
  | document entries ih =>
    obtain ⟨revived, hall, rfl⟩ := revive_document_iff.mp h
    rw [Value.leaves_document] at hleaf ⊢
    obtain ⟨u, hu, hleaf⟩ := List.mem_flatMap.mp hleaf
    obtain ⟨e, he, heu⟩ := exists_mem_of_forall₂ hall hu
    obtain ⟨old, hold, hrevive⟩ := ih e he heu.2 hleaf
    exact ⟨old, List.mem_flatMap.mpr ⟨e, he, hold⟩, hrevive⟩
  | marker m =>
    refine ⟨.marker m, List.mem_singleton_self _, ?_⟩
    have hdecode : standard.decode m = .ok w := h
    rcases decode_standard_cases hdecode with ⟨i, -, -, rfl⟩ | ⟨id, -, -, rfl⟩
    · rw [List.mem_singleton.mp hleaf]
      exact h
    · rw [List.mem_singleton.mp hleaf]
      exact h
  | _ =>
    cases h
    rw [List.mem_singleton.mp hleaf]
    exact ⟨_, List.mem_singleton_self _, rfl⟩

end Reviver

/-! ### Tokens -/

/-- Whether a leaf is spelled by one of the given tokens. Booleans need not be, as presence stands
for them, and what is decoded already never is. -/
def Value.IsSpelled (kinds : List TokenKind) : Value → Prop
  | null => .null ∈ kinds
  | boolean _ => True
  | int n => .number (.int n) ∈ kinds
  | double x => .number (.float x) ∈ kinds
  | string text => .string text ∈ kinds
  | marker m => .marker m.kind m.raw ∈ kinds
  | date _ | objectId _ | array _ | document _ => False

theorem Value.IsSpelled.mono {kinds kinds' : List TokenKind} (h : kinds ⊆ kinds') {leaf : Value}
    (hleaf : leaf.IsSpelled kinds) : leaf.IsSpelled kinds' := by
  cases leaf with
  | boolean b => trivial
  | date i | objectId id | array items | document entries => exact hleaf.elim
  | _ => exact h hleaf

theorem Literal.isSpelled_of_mem_leaves {v : Literal} {leaf : Value}
    (h : leaf ∈ v.toValue.leaves) : leaf.IsSpelled v.render := by
  induction v with
  | array items ih =>
    rw [toValue, toValues_eq_map, Value.leaves_array, List.flatMap_map] at h
    obtain ⟨v, hv, hleaf⟩ := List.mem_flatMap.mp h
    refine (ih v hv hleaf).mono ?_
    rw [render_array]
    exact List.Subset.trans (subset_intercalate (List.mem_map_of_mem hv))
      (List.Subset.trans (List.subset_append_left _ _) (List.subset_cons_self _ _))
  | number n =>
    cases n with
    | int n =>
      rw [List.mem_singleton.mp h]
      exact List.mem_singleton_self _
    | float x =>
      rw [List.mem_singleton.mp h]
      exact List.mem_singleton_self _
  | boolean b =>
    rw [List.mem_singleton.mp h]
    trivial
  | _ =>
    rw [List.mem_singleton.mp h]
    exact List.mem_singleton_self _

theorem Comparison.isSpelled_of_mem_leaves {c : Comparison} {leaf : Value} (hc : c.isCanonical)
    (h : leaf ∈ c.value.toValue.leaves) : leaf.IsSpelled c.render := by
  obtain ⟨field, op, value, span⟩ := c
  by_cases hop : op = .present
  · -- the literal of presence is a boolean
    subst hop
    cases value with
    | boolean b =>
      rw [List.mem_singleton.mp h]
      trivial
    | _ => exact absurd (Bool.and_eq_true_iff.mp hc).2 Bool.false_ne_true
  · refine (Literal.isSpelled_of_mem_leaves h).mono ?_
    have hrender : (Comparison.mk field op value span).render =
        .field field.dotted :: (op.render ++ value.render) := by
      cases op with
      | present => exact absurd rfl hop
      | _ => rfl
    rw [hrender]
    exact List.Subset.trans (List.subset_append_right _ _) (List.subset_cons_self _ _)

/-- Every leaf of a canonical tree is spelled by the tokens of the tree. -/
theorem Query.isSpelled_of_mem_leaves {q : Query} {leaf : Value} (hq : q.isCanonical)
    (h : leaf ∈ q.leaves) : leaf.IsSpelled q.render := by
  obtain ⟨c, hc, hleaf⟩ := List.mem_flatMap.mp h
  exact (Comparison.isSpelled_of_mem_leaves (isCanonical_of_mem_comparisons hq hc) hleaf).mono
    (render_subset_of_mem_comparisons hc)

end QueryFilter
