import QueryFilter.Filter.Emit
import QueryFilter.Proofs.Outcome
import QueryFilter.Proofs.Query.Grammar

/-!
# What a query is emitted as

Every property of emitted filters is proved along the tree: it has to hold of a comparison, and to
pass from the operands of a connective to their conjunction, disjunction or refusal. Emission as a
function takes the order of the operands and the first error into account; once it has succeeded,
none of this matters, and `Query.emit_induction` is what remains.

What stands in a filter is read by a table of its own, which has the keys of the operators one by
one, and by a relation between literals and values. Both say what a filter means to whoever reads
it, and neither looks at how it was made.

## Main definitions

* `CompareOp.ofKeyword?` — the operator of a key
* `Literal.Denotes` — the value of a literal
* `Document.connectives` — the keys that are no fields

## Main results

* `CompareOp.ofKeyword?_keyword`, `Literal.denotes_toValue` — operators and literals are emitted as
  the keys and values that stand for them
* `Document.conjoin_cases` — a conjunction is merged, or an array
* `Query.emit_induction` — induction along a successful emission
* `Query.view_of_emit` — what is listed of a document is listed of its comparisons
-/

namespace QueryFilter

/-- The operator that a key stands for in the document of a field. Equality has no key. -/
def CompareOp.ofKeyword? : String → Option CompareOp
  | "$ne" => some notEqual
  | "$gt" => some greater
  | "$gte" => some greaterEqual
  | "$lt" => some less
  | "$lte" => some lessEqual
  | "$in" => some member
  | "$nin" => some notMember
  | "$regex" => some pattern
  | "$exists" => some present
  | _ => none

/-- **Operators are emitted under their keys**: every operator but equality under the key that
stands for it. -/
theorem CompareOp.ofKeyword?_keyword {op : CompareOp} (h : op ≠ equal) :
    ofKeyword? op.keyword = some op := by
  cases op with
  | equal => exact absurd rfl h
  | _ => rfl

theorem CompareOp.keyword_of_ofKeyword? {key : String} {op : CompareOp}
    (h : ofKeyword? key = some op) : op.keyword = key := by
  unfold ofKeyword? at h
  split at h
  all_goals cases h
  all_goals rfl

/-- The value that a literal stands for. Nothing is converted: a string stays a string, and a typed
literal stays as it was written. -/
inductive Literal.Denotes : Literal → Value → Prop
  | string (text : String) : Denotes (.string text) (.string text)
  | int (n : Int64) : Denotes (.number (.int n)) (.int n)
  | float (x : Double) : Denotes (.number (.float x)) (.double x)
  | boolean (b : Bool) : Denotes (.boolean b) (.boolean b)
  | null : Denotes .null .null
  | array {items : List Literal} {values : List Value} (h : List.Forall₂ Denotes items values) :
    Denotes (.array items) (.array values)
  | marker (kind : MarkerKind) (raw : String) (span : Span) :
    Denotes (.marker kind raw span) (.marker ⟨kind, raw, some span⟩)

@[simp] theorem Literal.toValues_eq_map (vs : List Literal) : toValues vs = vs.map toValue := by
  induction vs with
  | nil => rfl
  | cons v vs ih => rw [toValues, ih, List.map_cons]

theorem Literal.denotes_toValue (v : Literal) : v.Denotes v.toValue := by
  induction v with
  | array items ih =>
    rw [toValue, toValues_eq_map]
    exact .array (List.forall₂_map_right_iff.mpr (List.forall₂_same.mpr ih))
  | number n =>
    cases n with
    | int n => exact .int n
    | float x => exact .float x
  | string text => exact .string text
  | boolean b => exact .boolean b
  | null => exact .null
  | marker kind raw span => exact .marker kind raw span

namespace Document

/-- The keys under which filters are combined. -/
def connectives : List String := ["$and", "$or", "$nor"]

/-- The entries of all documents, if none of their keys occurs twice, or an array of the
documents. -/
theorem conjoin_cases (merge : Bool) (docs : List Document) :
    ((docs.flatMap Entries.keys).Nodup ∧ conjoin merge docs = docs.flatten) ∨
      conjoin merge docs = [("$and", .array (docs.map .document))] := by
  rw [conjoin]
  split
  · rename_i hmerge
    have hnodup : (docs.flatMap Entries.keys).Nodup :=
      of_decide_eq_true (Bool.and_eq_true_iff.mp hmerge).2
    refine .inl ⟨hnodup, Entries.ofPairs_of_nodup ?_⟩
    rwa [Entries.keys, List.map_flatten, ← List.flatMap_def]
  · exact .inr rfl

end Document

namespace Query

theorem emitAll_eq_mapM (merge : Bool) (qs : List Query) :
    emitAll merge qs = qs.mapM (emit merge) := by
  induction qs with
  | nil => rfl
  | cons q qs ih =>
    rw [emitAll, List.mapM_cons, ih]
    cases q.emit merge with
    | error e => rfl
    | ok doc =>
      cases qs.mapM (emit merge) with
      | error e => rfl
      | ok docs => rfl

/-- Induction along a successful emission. A property of trees and documents holds of every tree
and its filter, if it holds of comparisons with the right type of operand and is passed on by the
connectives. -/
theorem emit_induction {merge : Bool} {P : Query → Document → Prop}
    (comparison : ∀ c : Comparison, c.op.mismatch? c.value = none →
      P (.comparison c) [(c.field.dotted, c.operand)])
    (and : ∀ operands docs, List.Forall₂ P operands docs →
      P (.and operands) (Document.conjoin merge docs))
    (or : ∀ operands docs, List.Forall₂ P operands docs →
      P (.or operands) (Document.disjoin docs))
    (not : ∀ operand doc, P operand doc → P (.not operand) (Document.refuse doc))
    (group : ∀ content doc, P content doc → P (.group content) doc)
    {q : Query} {doc : Document} (h : q.emit merge = .ok doc) : P q doc := by
  have hall : ∀ {operands : List Query} {docs : List Document},
      (∀ q ∈ operands, ∀ doc, q.emit merge = .ok doc → P q doc) →
        emitAll merge operands = .ok docs → List.Forall₂ P operands docs := by
    intro operands docs ih hdocs
    rw [emitAll_eq_mapM] at hdocs
    exact (List.forall₂_and_left _ _).mpr ⟨ih, Except.mapM_eq_ok_iff.mp hdocs⟩ |>.imp
      fun q doc hq => hq.1 doc hq.2
  induction q generalizing doc with
  | comparison c =>
    rw [emit, Comparison.emit] at h
    split at h
    · cases h
    · rename_i hop
      cases h
      exact comparison c hop
  | and operands ih =>
    rw [emit] at h
    obtain ⟨docs, hdocs, rfl⟩ := Except.map_eq_ok_iff.mp h
    exact and operands docs (hall (fun q hq doc => ih q hq) hdocs)
  | or operands ih =>
    rw [emit] at h
    obtain ⟨docs, hdocs, rfl⟩ := Except.map_eq_ok_iff.mp h
    exact or operands docs (hall (fun q hq doc => ih q hq) hdocs)
  | not operand ih =>
    rw [emit] at h
    obtain ⟨doc', hdoc, rfl⟩ := Except.map_eq_ok_iff.mp h
    exact not operand doc' (ih hdoc)
  | group content ih =>
    rw [emit] at h
    exact group content doc (ih h)

/-- What a view lists of an emitted document, it lists of the entries of the comparisons, in their
order. It only has to list documents that stand side by side one after the other, both where they
are merged and in the array of a connective. -/
theorem view_of_emit {α : Type} {view : Document → List α}
    (hflatten : ∀ docs : List Document, view docs.flatten = docs.flatMap view)
    (hconnective : ∀ key ∈ Document.connectives, ∀ docs : List Document,
      view [(key, .array (docs.map .document))] = docs.flatMap view)
    {merge : Bool} {q : Query} {doc : Document} (h : q.emit merge = .ok doc) :
    view doc = q.comparisons.flatMap fun c => view [(c.field.dotted, c.operand)] := by
  have hall : ∀ {operands : List Query} {docs : List Document},
      List.Forall₂ (fun q doc => view doc =
        q.comparisons.flatMap fun c => view [(c.field.dotted, c.operand)]) operands docs →
      docs.flatMap view =
        (allComparisons operands).flatMap fun c => view [(c.field.dotted, c.operand)] := by
    intro operands docs hdocs
    induction hdocs with
    | nil => rfl
    | cons hq _ ih => rw [List.flatMap_cons, ih, hq, allComparisons, List.flatMap_append]
  refine emit_induction (P := fun q doc => view doc =
    q.comparisons.flatMap fun c => view [(c.field.dotted, c.operand)]) ?_ ?_ ?_ ?_ ?_ h
  · intro c _
    rw [comparisons, List.flatMap_singleton]
  · intro operands docs hdocs
    rw [comparisons, ← hall hdocs]
    rcases Document.conjoin_cases merge docs with ⟨-, hmerged⟩ | harray
    · rw [hmerged, hflatten]
    · rw [harray, hconnective _ (by decide)]
  · intro operands docs hdocs
    rw [comparisons, ← hall hdocs, Document.disjoin, hconnective _ (by decide)]
  · intro operand doc ih
    have hone := hconnective "$nor" (by decide) [doc]
    rw [List.map_singleton, List.flatMap_singleton] at hone
    rw [comparisons, Document.refuse, hone, ih]
  · intro content doc ih
    exact ih

end Query

end QueryFilter
