import QueryFilter.Proofs.Filter.Emission
import QueryFilter.Proofs.Query.Source

/-!
# The meaning of a filter is that of its query

Neither a query nor a filter says what it is for a field to be greater than a value: that is up to
the database. A *reading* settles it for every field key, operator and value at once. On top of a
reading, a query means what its connectives say, and a filter what its keys say: it holds if all of
its entries do. Emission keeps the meaning under every reading.

The one place where this could fail is the merging of conjunctions. A key that occurs twice would
keep only its last entry, so the conjuncts are merged only if no key does; the keys of connectives
count like any others. A field that is itself called like a connective would be misread, but no
text spells one.

## Main definitions

* `Reading` — what the leaves mean
* `Query.holds`, `Document.holds` — what queries and filters mean under a reading

## Main results

* `Query.holds_of_emit` — a filter holds if its query does
* `Query.emission_preserves_meaning` — the same with merging on and off, and for parsed trees
-/

namespace QueryFilter

/-- What it means for the field of a key to be in a relation to a value. -/
abbrev Reading := String → CompareOp → Value → Bool

/-! ### Queries -/

/-- A comparison means what the reading says of its field, its operator and its value. -/
def Comparison.holds (I : Reading) (c : Comparison) : Bool :=
  I c.field.dotted c.op c.value.toValue

namespace Query

mutual

/-- Whether a query holds. -/
def holds (I : Reading) : Query → Bool
  | comparison c => c.holds I
  | and operands => allHold I operands
  | or operands => anyHolds I operands
  | not operand => !operand.holds I
  | group content => content.holds I

/-- Whether all of the queries hold. -/
def allHold (I : Reading) : List Query → Bool
  | [] => true
  | q :: qs => q.holds I && allHold I qs

/-- Whether one of the queries holds. -/
def anyHolds (I : Reading) : List Query → Bool
  | [] => false
  | q :: qs => q.holds I || anyHolds I qs

end

theorem holds_and (I : Reading) (operands : List Query) :
    (and operands).holds I = operands.all (holds I) := by
  rw [holds]
  induction operands with
  | nil => rfl
  | cons q qs ih => rw [allHold, ih, List.all_cons]

theorem holds_or (I : Reading) (operands : List Query) :
    (or operands).holds I = operands.any (holds I) := by
  rw [holds]
  induction operands with
  | nil => rfl
  | cons q qs ih => rw [anyHolds, ih, List.any_cons]

end Query

/-! ### Filters -/

namespace Document

mutual

/-- Whether a filter holds: all of its entries do. -/
def holds (I : Reading) : List (String × Value) → Bool
  | [] => true
  | (key, v) :: rest => entryHolds I key v && holds I rest

/-- Whether an entry holds. Connectives stand over arrays, operators in a document of one entry, and
what is neither is a value that the field has to have. -/
def entryHolds (I : Reading) (key : String) : Value → Bool
  | .array items =>
    if key = "$and" then allHold I items
    else if key = "$or" then anyHolds I items
    else if key = "$nor" then !anyHolds I items
    else I key .equal (.array items)
  | .document [(k, v)] =>
    match CompareOp.ofKeyword? k with
    | some op => I key op v
    | none => I key .equal (.document [(k, v)])
  | v => I key .equal v

/-- Whether a value under a connective holds; one that is no filter does not. -/
def filterHolds (I : Reading) : Value → Bool
  | .document entries => holds I entries
  | _ => false

/-- Whether all of the filters under a connective hold. -/
def allHold (I : Reading) : List Value → Bool
  | [] => true
  | v :: vs => filterHolds I v && allHold I vs

/-- Whether one of the filters under a connective holds. -/
def anyHolds (I : Reading) : List Value → Bool
  | [] => false
  | v :: vs => filterHolds I v || anyHolds I vs

end

/-! ### Combined filters -/

theorem holds_singleton (I : Reading) (key : String) (v : Value) :
    holds I [(key, v)] = entryHolds I key v := by
  rw [holds, holds, Bool.and_true]

theorem holds_append (I : Reading) (a b : Document) :
    holds I (a ++ b) = (holds I a && holds I b) := by
  induction a with
  | nil => rw [List.nil_append, holds, Bool.true_and]
  | cons entry rest ih => rw [List.cons_append, holds, holds, ih, Bool.and_assoc]

theorem holds_flatten (I : Reading) (docs : List Document) :
    holds I docs.flatten = docs.all (holds I) := by
  induction docs with
  | nil => rw [List.flatten_nil, holds, List.all_nil]
  | cons doc docs ih => rw [List.flatten_cons, holds_append, ih, List.all_cons]

theorem allHold_documents (I : Reading) (docs : List Document) :
    allHold I (docs.map .document) = docs.all (holds I) := by
  induction docs with
  | nil => rw [List.map_nil, allHold, List.all_nil]
  | cons doc docs ih => rw [List.map_cons, allHold, filterHolds, ih, List.all_cons]

theorem anyHolds_documents (I : Reading) (docs : List Document) :
    anyHolds I (docs.map .document) = docs.any (holds I) := by
  induction docs with
  | nil => rw [List.map_nil, anyHolds, List.any_nil]
  | cons doc docs ih => rw [List.map_cons, anyHolds, filterHolds, ih, List.any_cons]

/-- A conjunction holds if all of the filters do, whether their entries were merged or not. -/
theorem holds_conjoin (I : Reading) (merge : Bool) (docs : List Document) :
    holds I (conjoin merge docs) = docs.all (holds I) := by
  rcases conjoin_cases merge docs with ⟨-, hmerged⟩ | harray
  · rw [hmerged, holds_flatten]
  · rw [harray, holds_singleton, entryHolds, if_pos rfl, allHold_documents]

theorem holds_disjoin (I : Reading) (docs : List Document) :
    holds I (disjoin docs) = docs.any (holds I) := by
  rw [disjoin, holds_singleton, entryHolds, if_neg (by decide), if_pos rfl, anyHolds_documents]

theorem holds_refuse (I : Reading) (doc : Document) : holds I (refuse doc) = !holds I doc := by
  have hone := anyHolds_documents I [doc]
  rw [refuse, holds_singleton, entryHolds, if_neg (by decide), if_neg (by decide), if_pos rfl]
  rw [List.map_singleton, List.any_cons, List.any_nil, Bool.or_false] at hone
  rw [hone]

end Document

/-! ### Emission -/

/-- The value of a literal is no document, so under a field it is a value that the field has to
have. -/
theorem Document.entryHolds_toValue (I : Reading) {key : String} (hkey : key ∉ connectives)
    (v : Literal) : entryHolds I key v.toValue = I key .equal v.toValue := by
  have hkeys : key ≠ "$and" ∧ key ≠ "$or" ∧ key ≠ "$nor" := by
    simpa [connectives] using hkey
  cases v with
  | array items =>
    rw [Literal.toValue, entryHolds, if_neg hkeys.1, if_neg hkeys.2.1, if_neg hkeys.2.2]
  | number n =>
    cases n with
    | int n => rfl
    | float x => rfl
  | _ => rfl

/-- The entry of a comparison means what the comparison means. -/
theorem Comparison.entryHolds_operand (I : Reading) {c : Comparison}
    (hkey : c.field.dotted ∉ Document.connectives) :
    Document.entryHolds I c.field.dotted c.operand = c.holds I := by
  rw [operand, holds]
  split
  · rename_i hop
    rw [Document.entryHolds_toValue I hkey, hop]
  · rename_i hop
    rw [Document.entryHolds, CompareOp.ofKeyword?_keyword hop]

namespace Query

/-- No field of the query is called like a connective. -/
def FieldsOnly (q : Query) : Prop := ∀ c ∈ q.comparisons, c.field.dotted ∉ Document.connectives

instance (q : Query) : Decidable q.FieldsOnly :=
  inferInstanceAs (Decidable (∀ c ∈ q.comparisons, c.field.dotted ∉ Document.connectives))

theorem FieldsOnly.of_mem {operands : List Query} {q : Query} (hq : q ∈ operands)
    (h : ∀ c ∈ allComparisons operands, c.field.dotted ∉ Document.connectives) : q.FieldsOnly := by
  intro c hc
  exact h c (mem_allComparisons.mpr ⟨q, hq, hc⟩)

/-- Filters that hold if their queries do, one by one, all hold if all of the queries do, and one of
them does if one of the queries does. -/
theorem all_any_of_forall₂ {I : Reading} {operands : List Query} {docs : List Document}
    (h : List.Forall₂ (fun q doc => q.FieldsOnly → Document.holds I doc = q.holds I) operands docs)
    (hkeys : ∀ q ∈ operands, q.FieldsOnly) :
    docs.all (Document.holds I) = operands.all (holds I) ∧
      docs.any (Document.holds I) = operands.any (holds I) := by
  induction h with
  | nil => exact ⟨rfl, rfl⟩
  | cons hq _ ih =>
    obtain ⟨hall, hany⟩ := ih fun q hq => hkeys q (List.mem_cons_of_mem _ hq)
    have hhead := hq (hkeys _ List.mem_cons_self)
    exact ⟨by rw [List.all_cons, List.all_cons, hhead, hall],
      by rw [List.any_cons, List.any_cons, hhead, hany]⟩

/-- The filter of a query holds if the query does. -/
theorem holds_of_emit (I : Reading) {merge : Bool} {q : Query} {doc : Document}
    (h : q.emit merge = .ok doc) : q.FieldsOnly → Document.holds I doc = q.holds I := by
  refine emit_induction (P := fun q doc => q.FieldsOnly → Document.holds I doc = q.holds I)
    ?_ ?_ ?_ ?_ ?_ h
  · intro c _ hkeys
    rw [Document.holds_singleton, Comparison.entryHolds_operand I (hkeys c List.mem_cons_self),
      holds]
  · intro operands docs hdocs hkeys
    rw [Document.holds_conjoin, holds_and,
      (all_any_of_forall₂ hdocs fun q hq => FieldsOnly.of_mem hq hkeys).1]
  · intro operands docs hdocs hkeys
    rw [Document.holds_disjoin, holds_or,
      (all_any_of_forall₂ hdocs fun q hq => FieldsOnly.of_mem hq hkeys).2]
  · intro operand doc ih hkeys
    rw [Document.holds_refuse, holds, ih hkeys]
  · intro content doc ih hkeys
    rw [holds, ih hkeys]

/-- A text cannot name a connective. -/
theorem fieldsOnly_of_parse {c : Compiler} {source : String} {q : Query}
    (h : c.parse source = .ok q) : q.FieldsOnly := by
  intro d hd hmem
  refine Token.head?_ne_dollar_of_isFieldKey (Compiler.isFieldKey_of_parse h d hd) ?_
  have hdollar : ∀ key ∈ Document.connectives, key.toList.head? = some '$' := by decide
  exact hdollar _ hmem

/-- **Emission preserves meaning.** Under every reading, whatever a query without fields that are
called like connectives is emitted as holds if and only if the query does, with merging on and off;
so both of its filters mean the same. Every parsed tree is such a query. What is read of a
comparison is the value that its literal stands for. -/
theorem emission_preserves_meaning :
    (∀ q : Query, q.FieldsOnly → ∀ I : Reading,
      (∀ merge doc, q.emit merge = .ok doc → Document.holds I doc = q.holds I) ∧
        ∀ merged apart, q.emit true = .ok merged → q.emit false = .ok apart →
          Document.holds I merged = Document.holds I apart) ∧
      (∀ (c : Compiler) (source : String) (q : Query), c.parse source = .ok q → q.FieldsOnly) ∧
      ∀ v : Literal, v.Denotes v.toValue := by
  refine ⟨?_, ?_, ?_⟩
  · intro q hkeys I
    constructor
    · intro merge doc h
      exact holds_of_emit I h hkeys
    · intro merged apart hmerged hapart
      rw [holds_of_emit I hmerged hkeys, holds_of_emit I hapart hkeys]
  · intro c source q h
    exact fieldsOnly_of_parse h
  · intro v
    exact v.denotes_toValue

/-- Every operator under its key. The inner conjunction is merged, and the outer one is not, as `a`
comes in both of its parts. The reading has all that is asked for, and of the field that is negated
only that it is equal to something. -/
theorem emission_preserves_every_operator :
    let compare field op value := comparison ⟨⟨[field]⟩, op, value, .point 0⟩
    let one := Literal.number (.int 1)
    let inner := and [compare "a" .lessEqual one, compare "b" .greaterEqual one,
      compare "c" .less one, compare "d" .notEqual .null, compare "e" .member (.array [one]),
      compare "f" .notMember (.array []), compare "g" .pattern (.string "^x"),
      not (compare "h" .present (.boolean true)), compare "k" .equal one]
    let q := and [compare "a" .greater one, group inner]
    let merged : Document := [("a", .document [("$lte", .int 1)]),
      ("b", .document [("$gte", .int 1)]), ("c", .document [("$lt", .int 1)]),
      ("d", .document [("$ne", .null)]), ("e", .document [("$in", .array [.int 1])]),
      ("f", .document [("$nin", .array [])]), ("g", .document [("$regex", .string "^x")]),
      ("$nor", .array [.document [("h", .document [("$exists", .boolean true)])]]),
      ("k", .int 1)]
    let doc : Document := [("$and", .array [.document [("a", .document [("$gt", .int 1)])],
      .document merged])]
    let I : Reading := fun key op _ => (key, op) ∈ [("a", .greater), ("a", .lessEqual),
      ("b", .greaterEqual), ("c", .less), ("d", .notEqual), ("e", .member), ("f", .notMember),
      ("g", .pattern), ("h", .equal), ("k", .equal)]
    q.FieldsOnly ∧ q.emit true = .ok doc ∧ Document.holds I doc = q.holds I ∧
      q.holds I = true := by
  intro compare one inner q merged doc I
  have hkeys : q.FieldsOnly := by decide
  have hdoc : q.emit true = .ok doc := by
    simp only [q, inner, compare, one, doc, merged]
    rfl
  have hholds : q.holds I = true := by decide
  exact ⟨hkeys, hdoc, (emission_preserves_meaning.1 q hkeys I).1 true doc hdoc, hholds⟩

end Query

end QueryFilter
