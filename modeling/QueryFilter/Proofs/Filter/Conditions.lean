import QueryFilter.Proofs.Filter.Meaning

/-!
# The conditions of a filter, from left to right

A filter can be read as a plain list: the fields with what is asked of them, those in the array of a
connective at the place of the connective. Read like this, a filter is the list of the comparisons
of its query: none is lost, none comes twice, and their order is that of the query.

Merging enters the entries of all conjuncts into one document, one after the other. A key that came
up again would keep its first place and take the last value, so the list would lose a condition and
the next ones move up. That no document has a key twice is therefore part of the statement.

## Main definitions

* `Document.conditions` — the fields of a filter and what is asked of them, from left to right
* `Comparison.Asks` — what a comparison asks of its field, as filters ask it
* `Value.hasDistinctKeys` — no document has a key twice, at any depth

## Main results

* `Query.conditions_of_emit` — the conditions of a filter are the comparisons of its query
* `Query.hasDistinctKeys_of_emit` — no emitted document has a key twice
* `Query.emission_lists_comparisons` — both, with merging on and off
-/

namespace QueryFilter

/-! ### Conditions in order -/

namespace Document

mutual

/-- The conditions of a filter from left to right. -/
def conditions : List (String × Value) → List (String × Value)
  | [] => []
  | (key, v) :: rest => entryConditions key v ++ conditions rest

/-- The conditions of an entry: those in the array of a connective, or the entry itself. -/
def entryConditions (key : String) : Value → List (String × Value)
  | .array items => if key ∈ connectives then itemConditions key items else [(key, .array items)]
  | v => [(key, v)]

/-- The conditions in the array of a connective from left to right. -/
def itemConditions (key : String) : List Value → List (String × Value)
  | [] => []
  | v :: vs => filterConditions key v ++ itemConditions key vs

/-- The conditions of one item of a connective. What is no filter is left under the key, so that
nothing can hide there. -/
def filterConditions (key : String) : Value → List (String × Value)
  | .document entries => conditions entries
  | v => [(key, v)]

end

theorem conditions_singleton (key : String) (v : Value) :
    conditions [(key, v)] = entryConditions key v := by
  rw [conditions, conditions, List.append_nil]

theorem conditions_append (a b : Document) :
    conditions (a ++ b) = conditions a ++ conditions b := by
  induction a with
  | nil => rw [List.nil_append, conditions, List.nil_append]
  | cons entry rest ih => rw [List.cons_append, conditions, conditions, ih, List.append_assoc]

theorem conditions_flatten (docs : List Document) :
    conditions docs.flatten = docs.flatMap conditions := by
  induction docs with
  | nil => rw [List.flatten_nil, conditions, List.flatMap_nil]
  | cons doc docs ih => rw [List.flatten_cons, conditions_append, ih, List.flatMap_cons]

theorem itemConditions_documents (key : String) (docs : List Document) :
    itemConditions key (docs.map .document) = docs.flatMap conditions := by
  induction docs with
  | nil => rw [List.map_nil, itemConditions, List.flatMap_nil]
  | cons doc docs ih => rw [List.map_cons, itemConditions, filterConditions, ih, List.flatMap_cons]

theorem conditions_connective {key : String} (hkey : key ∈ connectives) (docs : List Document) :
    conditions [(key, .array (docs.map .document))] = docs.flatMap conditions := by
  rw [conditions_singleton, entryConditions, if_pos hkey, itemConditions_documents]

/-- The entry of a field is a condition as it stands. -/
theorem conditions_field {key : String} (hkey : key ∉ connectives) (v : Value) :
    conditions [(key, v)] = [(key, v)] := by
  rw [conditions_singleton]
  cases v with
  | array items => rw [entryConditions, if_neg hkey]
  | _ => rfl

end Document

/-- What a comparison asks of its field, as it stands in a filter: equality is asked by the value of
the literal, and any other operator by a document of one entry, with the key of the operator. -/
inductive Comparison.Asks (c : Comparison) : Value → Prop
  | equal {v : Value} (hop : c.op = .equal) (hv : c.value.Denotes v) : Asks c v
  | operator {key : String} {v : Value} (hop : CompareOp.ofKeyword? key = some c.op)
    (hv : c.value.Denotes v) : Asks c (.document [(key, v)])

theorem Comparison.asks_operand (c : Comparison) : c.Asks c.operand := by
  rw [operand]
  split
  · rename_i hop
    exact .equal hop c.value.denotes_toValue
  · rename_i hop
    exact .operator (CompareOp.ofKeyword?_keyword hop) c.value.denotes_toValue

namespace Query

/-- **The conditions of a filter are the comparisons of its query**, in the same order. -/
theorem conditions_of_emit {merge : Bool} {q : Query} {doc : Document} (hkeys : q.FieldsOnly)
    (h : q.emit merge = .ok doc) :
    Document.conditions doc = q.comparisons.map fun c => (c.field.dotted, c.operand) := by
  rw [view_of_emit Document.conditions_flatten (fun _ => Document.conditions_connective) h,
    List.flatMap_congr fun c hc => Document.conditions_field (hkeys c hc) c.operand,
    List.map_eq_flatMap]

end Query

/-! ### Distinct keys -/

namespace Value

mutual

/-- Whether no document in a value has a key twice, at any depth. -/
def hasDistinctKeys : Value → Bool
  | array items => haveDistinctKeys items
  | document entries =>
    decide (Entries.keys entries).Nodup && entriesHaveDistinctKeys entries
  | _ => true

/-- Whether no document in the values has a key twice. -/
def haveDistinctKeys : List Value → Bool
  | [] => true
  | v :: vs => v.hasDistinctKeys && haveDistinctKeys vs

/-- Whether no document in the values of the entries has a key twice. -/
def entriesHaveDistinctKeys : List (String × Value) → Bool
  | [] => true
  | (_, v) :: rest => v.hasDistinctKeys && entriesHaveDistinctKeys rest

end

theorem hasDistinctKeys_array_iff {items : List Value} :
    (array items).hasDistinctKeys ↔ ∀ v ∈ items, v.hasDistinctKeys := by
  rw [hasDistinctKeys]
  induction items with
  | nil => simp [haveDistinctKeys]
  | cons v vs ih => rw [haveDistinctKeys, Bool.and_eq_true, ih, List.forall_mem_cons]

theorem hasDistinctKeys_document_iff {entries : List (String × Value)} :
    (document entries).hasDistinctKeys ↔
      (Entries.keys entries).Nodup ∧ ∀ e ∈ entries, e.2.hasDistinctKeys := by
  have hall : entriesHaveDistinctKeys entries ↔ ∀ e ∈ entries, e.2.hasDistinctKeys := by
    induction entries with
    | nil => simp [entriesHaveDistinctKeys]
    | cons e es ih => rw [entriesHaveDistinctKeys, Bool.and_eq_true, ih, List.forall_mem_cons]
  rw [hasDistinctKeys, Bool.and_eq_true, decide_eq_true_iff, hall]

/-- A single key does not come twice. -/
theorem hasDistinctKeys_singleton_iff {key : String} {v : Value} :
    (document [(key, v)]).hasDistinctKeys ↔ v.hasDistinctKeys := by
  rw [hasDistinctKeys_document_iff]
  simp [Entries.keys]

end Value

/-- The value of a literal has no document in it. -/
theorem Literal.hasDistinctKeys_toValue (v : Literal) : v.toValue.hasDistinctKeys := by
  induction v with
  | array items ih =>
    rw [toValue, toValues_eq_map, Value.hasDistinctKeys_array_iff]
    exact List.forall_mem_map.mpr ih
  | number n =>
    cases n with
    | int n => rfl
    | float x => rfl
  | _ => rfl

theorem Comparison.hasDistinctKeys_operand (c : Comparison) : c.operand.hasDistinctKeys := by
  rw [operand]
  split
  · exact c.value.hasDistinctKeys_toValue
  · exact Value.hasDistinctKeys_singleton_iff.mpr c.value.hasDistinctKeys_toValue

namespace Document

theorem hasDistinctKeys_connective {docs : List Document}
    (hdocs : ∀ doc ∈ docs, (Value.document doc).hasDistinctKeys) (key : String) :
    (Value.document [(key, .array (docs.map .document))]).hasDistinctKeys := by
  rw [Value.hasDistinctKeys_singleton_iff, Value.hasDistinctKeys_array_iff]
  exact List.forall_mem_map.mpr hdocs

/-- Documents are merged only if no key comes twice in all of them. -/
theorem hasDistinctKeys_conjoin {docs : List Document}
    (hdocs : ∀ doc ∈ docs, (Value.document doc).hasDistinctKeys) (merge : Bool) :
    (Value.document (conjoin merge docs)).hasDistinctKeys := by
  rcases conjoin_cases merge docs with ⟨hnodup, hmerged⟩ | harray
  · rw [hmerged, Value.hasDistinctKeys_document_iff]
    constructor
    · rwa [Entries.keys, List.map_flatten, ← List.flatMap_def]
    · intro e he
      obtain ⟨doc, hdoc, he⟩ := List.mem_flatten.mp he
      exact (Value.hasDistinctKeys_document_iff.mp (hdocs doc hdoc)).2 e he
  · rw [harray]
    exact hasDistinctKeys_connective hdocs "$and"

end Document

namespace Query

/-- **No emitted document has a key twice**, at any depth. -/
theorem hasDistinctKeys_of_emit {merge : Bool} {q : Query} {doc : Document}
    (h : q.emit merge = .ok doc) : (Value.document doc).hasDistinctKeys := by
  have hall : ∀ {operands : List Query} {docs : List Document},
      List.Forall₂ (fun _ doc => (Value.document doc).hasDistinctKeys) operands docs →
        ∀ doc ∈ docs, (Value.document doc).hasDistinctKeys := by
    intro operands docs hdocs doc hdoc
    obtain ⟨_, -, hkeys⟩ := exists_mem_of_forall₂ hdocs hdoc
    exact hkeys
  refine emit_induction (P := fun _ doc => (Value.document doc).hasDistinctKeys)
    ?_ ?_ ?_ ?_ ?_ h
  · intro c _
    exact Value.hasDistinctKeys_singleton_iff.mpr c.hasDistinctKeys_operand
  · intro operands docs hdocs
    exact Document.hasDistinctKeys_conjoin (hall hdocs) merge
  · intro operands docs hdocs
    exact Document.hasDistinctKeys_connective (hall hdocs) "$or"
  · intro operand doc hdoc
    have hone : ∀ d ∈ [doc], (Value.document d).hasDistinctKeys := by simpa using hdoc
    exact Document.hasDistinctKeys_connective hone "$nor"
  · intro content doc hdoc
    exact hdoc

/-- **Emission lists the comparisons.** The conditions of an emitted document, from left to right
and through all connectives, are the comparisons of its query in their order: each as its field with
the value of the literal, or with the document of its operator, as filters ask for it. No document
in it has a key twice. All of this holds with merging on and off. -/
theorem emission_lists_comparisons (q : Query) (hkeys : q.FieldsOnly) (merge : Bool)
    (doc : Document) (h : q.emit merge = .ok doc) :
    Document.conditions doc = q.comparisons.map (fun c => (c.field.dotted, c.operand)) ∧
      List.Forall₂ (fun c e => e.1 = c.field.dotted ∧ c.Asks e.2) q.comparisons
        (Document.conditions doc) ∧
      (Value.document doc).hasDistinctKeys := by
  have hconditions := conditions_of_emit hkeys h
  refine ⟨hconditions, ?_, hasDistinctKeys_of_emit h⟩
  rw [hconditions]
  exact List.forall₂_map_right_iff.mpr (List.forall₂_same.mpr fun c _ => ⟨rfl, c.asks_operand⟩)

/-- `a = 1 AND (b > 2 AND NOT (a < 5 AND a != 3)) AND c = [1]`: the field `a` comes up three times,
twice in a conjunction that is not merged below one that is, and the five conditions keep their
order. -/
theorem emission_lists_repeated_field :
    let compare field op v := comparison ⟨⟨[field]⟩, op, v, .point 0⟩
    let int n := Literal.number (.int n)
    let inner := and [compare "a" .less (int 5), compare "a" .notEqual (int 3)]
    let q := and [compare "a" .equal (int 1),
      group (and [compare "b" .greater (int 2), not (group inner)]),
      compare "c" .equal (.array [int 1])]
    let less : Value := .document [("$lt", .int 5)]
    let different : Value := .document [("$ne", .int 3)]
    let doc : Document := [("a", .int 1), ("b", .document [("$gt", .int 2)]),
      ("$nor", .array [.document [("$and", .array [.document [("a", less)],
        .document [("a", different)]])]]), ("c", .array [.int 1])]
    q.FieldsOnly ∧ q.emit true = .ok doc ∧
      Document.conditions doc = q.comparisons.map (fun c => (c.field.dotted, c.operand)) ∧
      List.Forall₂ (fun c e => e.1 = c.field.dotted ∧ c.Asks e.2) q.comparisons
        (Document.conditions doc) ∧
      (Value.document doc).hasDistinctKeys ∧
      (Document.conditions doc).map Prod.fst = ["a", "b", "a", "a", "c"] := by
  intro compare int inner q less different doc
  have hkeys : q.FieldsOnly := by decide
  have hdoc : q.emit true = .ok doc := rfl
  obtain ⟨hconditions, hasks, hdistinct⟩ := emission_lists_comparisons q hkeys true doc hdoc
  exact ⟨hkeys, hdoc, hconditions, hasks, hdistinct, by decide⟩

end Query

end QueryFilter
