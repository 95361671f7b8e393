import QueryFilter.Proofs.Filter.Emission
import QueryFilter.Proofs.Filter.Revival
import QueryFilter.Proofs.Query.Source

/-!
# Texts cannot name operators

Whoever writes a query chooses names and values, and nothing else: the operators of its filter are
those that its connectives and comparisons stand for. In a *well-formed* filter, a key that starts
with a dollar sign is a connective over filters, or the operator in the document of a field with an
operand of the right type; there is no other document anywhere, so none that could hold an operator.
The filter is never empty, as it would then match everything.

Emission makes well-formed filters of parsed trees, and reviving keeps them well formed.

## Main definitions

* `Value.isPlain` — no document at any depth
* `CompareOp.accepts` — the type of operand that an operator needs
* `Value.isCondition` — what can stand under a field
* `Document.isFilter` — well-formed filters

## Main results

* `Query.isFilter_of_emit` — canonical trees with field keys are emitted as well-formed filters
* `Reviver.isFilter_of_revive` — reviving keeps a filter well formed
* `Compiler.text_cannot_name_operators` — both for every text
-/

namespace QueryFilter

/-! ### Well-formed filters -/

namespace Value

mutual

/-- Whether a value has no document in it at any depth. -/
def isPlain : Value → Bool
  | document _ => false
  | array items => arePlain items
  | _ => true

/-- Whether none of the values has a document in it. -/
def arePlain : List Value → Bool
  | [] => true
  | v :: vs => v.isPlain && arePlain vs

end

theorem isPlain_array_iff {items : List Value} :
    (array items).isPlain ↔ ∀ v ∈ items, v.isPlain := by
  rw [isPlain]
  induction items with
  | nil => simp [arePlain]
  | cons v vs ih => rw [arePlain, Bool.and_eq_true, ih, List.forall_mem_cons]

end Value

/-- Whether a value is of the type that an operator needs. -/
def CompareOp.accepts : CompareOp → Value → Bool
  | member, .array _ | notMember, .array _ => true
  | member, _ | notMember, _ => false
  | pattern, .string _ => true
  | pattern, _ => false
  | present, .boolean _ => true
  | present, _ => false
  | _, _ => true

/-- Whether a value can stand under a field: it is plain, or the document of one operator with a
plain operand of the right type. -/
def Value.isCondition : Value → Bool
  | document [(key, v)] =>
    match CompareOp.ofKeyword? key with
    | some op => v.isPlain && op.accepts v
    | none => false
  | document _ => false
  | v => v.isPlain

namespace Document

mutual

/-- Whether a value is a document that is a well-formed filter. -/
def valueIsFilter : Value → Bool
  | .document entries =>
    !entries.isEmpty && decide (Entries.keys entries).Nodup && entriesWellFormed entries
  | _ => false

/-- Whether all of the values are well-formed filters. -/
def areFilters : List Value → Bool
  | [] => true
  | v :: vs => valueIsFilter v && areFilters vs

/-- Whether an entry of a filter is well formed: a connective over filters, at least two of them
unless it refuses one, or a field with a condition. -/
def entryWellFormed (key : String) : Value → Bool
  | .array items =>
    if key = "$and" || key = "$or" then 2 ≤ items.length && areFilters items
    else if key = "$nor" then items.length = 1 && areFilters items
    else Token.isFieldKey key && (Value.array items).isPlain
  | v => Token.isFieldKey key && v.isCondition

/-- Whether all entries of a filter are well formed. -/
def entriesWellFormed : List (String × Value) → Bool
  | [] => true
  | (key, v) :: rest => entryWellFormed key v && entriesWellFormed rest

end

/-- Whether a document is a well-formed filter: it has an entry, its keys are different, and every
entry is well formed. -/
def isFilter (doc : Document) : Bool := valueIsFilter (.document doc)

theorem areFilters_iff {items : List Value} :
    areFilters items ↔ ∀ v ∈ items, valueIsFilter v := by
  induction items with
  | nil => simp [areFilters]
  | cons v vs ih => rw [areFilters, Bool.and_eq_true, ih, List.forall_mem_cons]

theorem entriesWellFormed_iff {entries : List (String × Value)} :
    entriesWellFormed entries ↔ ∀ e ∈ entries, entryWellFormed e.1 e.2 := by
  induction entries with
  | nil => simp [entriesWellFormed]
  | cons e es ih => rw [entriesWellFormed, Bool.and_eq_true, ih, List.forall_mem_cons]

theorem isFilter_iff {doc : Document} : isFilter doc ↔
    doc ≠ [] ∧ (Entries.keys doc).Nodup ∧ ∀ e ∈ doc, entryWellFormed e.1 e.2 := by
  rw [isFilter, valueIsFilter, Bool.and_eq_true, Bool.and_eq_true, entriesWellFormed_iff,
    decide_eq_true_iff, Bool.not_eq_true', List.isEmpty_eq_false_iff, and_assoc]

theorem isFilter_singleton_iff {key : String} {v : Value} :
    isFilter [(key, v)] ↔ entryWellFormed key v := by
  rw [isFilter_iff]
  simp [Entries.keys]

theorem ne_connective_of_isFieldKey {key : String} (h : Token.isFieldKey key) :
    key ≠ "$and" ∧ key ≠ "$or" ∧ key ≠ "$nor" := by
  have hdollar := Token.head?_ne_dollar_of_isFieldKey h
  refine ⟨?_, ?_, ?_⟩ <;>
  · rintro rfl
    exact hdollar (by decide)

/-- A field with a condition is well formed. -/
theorem entryWellFormed_of_isCondition {key : String} {v : Value} (hkey : Token.isFieldKey key)
    (hv : v.isCondition) : entryWellFormed key v := by
  cases v with
  | array items =>
    obtain ⟨hand, hor, hnor⟩ := ne_connective_of_isFieldKey hkey
    rw [entryWellFormed, if_neg (by simp [hand, hor]), if_neg hnor]
    exact Bool.and_eq_true_iff.mpr ⟨hkey, hv⟩
  | _ => exact Bool.and_eq_true_iff.mpr ⟨hkey, hv⟩

/-- What stands under a field key is a condition. -/
theorem isCondition_of_entryWellFormed {key : String} {v : Value} (hkey : Token.isFieldKey key)
    (h : entryWellFormed key v) : v.isCondition := by
  cases v with
  | array items =>
    obtain ⟨hand, hor, hnor⟩ := ne_connective_of_isFieldKey hkey
    rw [entryWellFormed, if_neg (by simp [hand, hor]), if_neg hnor] at h
    exact (Bool.and_eq_true_iff.mp h).2
  | _ => exact (Bool.and_eq_true_iff.mp h).2

/-- Well-formed filters under different keys are a well-formed filter together. -/
theorem isFilter_flatten {docs : List Document} (hne : docs ≠ [])
    (hkeys : (docs.flatMap Entries.keys).Nodup) (hdocs : ∀ doc ∈ docs, isFilter doc) :
    isFilter docs.flatten := by
  refine isFilter_iff.mpr ⟨?_, ?_, ?_⟩
  · obtain ⟨doc, more, rfl⟩ := List.exists_cons_of_ne_nil hne
    have hdoc := (isFilter_iff.mp (hdocs doc List.mem_cons_self)).1
    rw [List.flatten_cons]
    exact List.append_ne_nil_of_left_ne_nil hdoc _
  · rwa [Entries.keys, List.map_flatten, ← List.flatMap_def]
  · intro e he
    obtain ⟨doc, hdoc, hmem⟩ := List.mem_flatten.mp he
    exact (isFilter_iff.mp (hdocs doc hdoc)).2.2 e hmem

theorem areFilters_documents {docs : List Document} (hdocs : ∀ doc ∈ docs, isFilter doc) :
    areFilters (docs.map .document) := by
  refine areFilters_iff.mpr ?_
  intro v hv
  obtain ⟨doc, hdoc, rfl⟩ := List.mem_map.mp hv
  exact hdocs doc hdoc

theorem isFilter_conjoin {merge : Bool} {docs : List Document} (hlength : 2 ≤ docs.length)
    (hdocs : ∀ doc ∈ docs, isFilter doc) : isFilter (conjoin merge docs) := by
  rcases conjoin_cases merge docs with ⟨hkeys, hmerged⟩ | harray
  · rw [hmerged]
    refine isFilter_flatten ?_ hkeys hdocs
    rintro rfl
    exact absurd hlength (by decide)
  · rw [harray, isFilter_singleton_iff, entryWellFormed, if_pos (by decide), List.length_map,
      Bool.and_eq_true, decide_eq_true_iff]
    exact ⟨hlength, areFilters_documents hdocs⟩

theorem isFilter_disjoin {docs : List Document} (hlength : 2 ≤ docs.length)
    (hdocs : ∀ doc ∈ docs, isFilter doc) : isFilter (disjoin docs) := by
  rw [disjoin, isFilter_singleton_iff, entryWellFormed, if_pos (by decide), List.length_map,
    Bool.and_eq_true, decide_eq_true_iff]
  exact ⟨hlength, areFilters_documents hdocs⟩

theorem isFilter_refuse {doc : Document} (hdoc : isFilter doc) : isFilter (refuse doc) := by
  rw [refuse, isFilter_singleton_iff, entryWellFormed, if_neg (by decide), if_pos rfl,
    Bool.and_eq_true, areFilters_iff]
  exact ⟨rfl, List.forall_mem_singleton.mpr hdoc⟩

end Document

/-! ### Emission -/

/-- The value of a literal is plain. -/
theorem Literal.isPlain_toValue (v : Literal) : v.toValue.isPlain := by
  induction v with
  | array items ih =>
    rw [toValue, Value.isPlain_array_iff]
    intro w hw
    rw [toValues_eq_map, List.mem_map] at hw
    obtain ⟨v, hv, rfl⟩ := hw
    exact ih v hv
  | number n =>
    cases n with
    | int n => rfl
    | float x => rfl
  | _ => rfl

/-- The operands that are refused are those of the wrong type. -/
theorem CompareOp.accepts_of_mismatch? {op : CompareOp} {v : Literal} (h : op.mismatch? v = none) :
    op.accepts v.toValue := by
  cases op with
  | member | notMember | pattern | present =>
    cases v with
    | number n => cases h
    | _ => first | rfl | cases h
  | _ => rfl

/-- A plain value can stand under a field. -/
theorem Value.isCondition_of_isPlain {v : Value} (h : v.isPlain) : v.isCondition := by
  cases v with
  | document entries => cases h
  | _ => exact h

/-- The entry of a comparison has a condition. -/
theorem Comparison.isCondition_operand {c : Comparison} (h : c.op.mismatch? c.value = none) :
    c.operand.isCondition := by
  rw [operand]
  split
  · exact Value.isCondition_of_isPlain c.value.isPlain_toValue
  · rename_i hop
    rw [Value.isCondition, CompareOp.ofKeyword?_keyword hop]
    exact Bool.and_eq_true_iff.mpr ⟨c.value.isPlain_toValue, CompareOp.accepts_of_mismatch? h⟩

namespace Query

/-- All fields of the query have field keys. -/
def HasFieldKeys (q : Query) : Prop := ∀ c ∈ q.comparisons, Token.isFieldKey c.field.dotted

/-- Canonical trees with field keys are emitted as well-formed filters. -/
theorem isFilter_of_emit {merge : Bool} {q : Query} {doc : Document}
    (h : q.emit merge = .ok doc) : q.isCanonical → q.HasFieldKeys → doc.isFilter := by
  have hall : ∀ {operands : List Query} {docs : List Document},
      List.Forall₂ (fun q doc => q.isCanonical → q.HasFieldKeys → Document.isFilter doc)
        operands docs →
      (∀ q ∈ operands, q.isCanonical) →
      (∀ c ∈ allComparisons operands, Token.isFieldKey c.field.dotted) →
        ∀ doc ∈ docs, Document.isFilter doc := by
    intro operands docs hdocs hcanonical hkeys doc hdoc
    obtain ⟨q, hq, hfilter⟩ := exists_mem_of_forall₂ hdocs hdoc
    refine hfilter (hcanonical q hq) ?_
    intro c hc
    exact hkeys c (mem_allComparisons.mpr ⟨q, hq, hc⟩)
  refine emit_induction
    (P := fun q doc => q.isCanonical → q.HasFieldKeys → Document.isFilter doc) ?_ ?_ ?_ ?_ ?_ h
  · intro c hop _ hkeys
    exact Document.isFilter_singleton_iff.mpr (Document.entryWellFormed_of_isCondition
      (hkeys c List.mem_cons_self) (Comparison.isCondition_operand hop))
  · intro operands docs hdocs hcanonical hkeys
    obtain ⟨hlength, -, hoperands⟩ := isCanonical_and_iff.mp hcanonical
    exact Document.isFilter_conjoin (hdocs.length_eq ▸ hlength) (hall hdocs hoperands hkeys)
  · intro operands docs hdocs hcanonical hkeys
    obtain ⟨hlength, -, hoperands⟩ := isCanonical_or_iff.mp hcanonical
    exact Document.isFilter_disjoin (hdocs.length_eq ▸ hlength) (hall hdocs hoperands hkeys)
  · intro operand doc ih hcanonical hkeys
    exact Document.isFilter_refuse (ih (Bool.and_eq_true_iff.mp hcanonical).2 hkeys)
  · intro content doc ih hcanonical hkeys
    exact ih hcanonical hkeys

end Query

/-! ### Reviving -/

namespace Reviver

/-- A plain value is revived to a plain value: what the decoders make of markers is no document. -/
theorem isPlain_of_revive {v w : Value} (h : standard.revive v = .ok w) (hv : v.isPlain) :
    w.isPlain := by
  induction v generalizing w with
  | array items ih =>
    obtain ⟨revived, hall, rfl⟩ := revive_array_iff.mp h
    rw [Value.isPlain_array_iff] at hv ⊢
    intro u hu
    obtain ⟨v, hmem, hvu⟩ := exists_mem_of_forall₂ hall hu
    exact ih v hmem hvu (hv v hmem)
  | document entries _ => cases hv
  | marker m =>
    rw [revive] at h
    rcases decode_standard_cases h with ⟨i, -, -, rfl⟩ | ⟨id, -, -, rfl⟩
    · rfl
    · rfl
  | _ =>
    cases h
    rfl

/-- Arrays, strings and booleans stay what they are. -/
theorem accepts_of_revive {op : CompareOp} {v w : Value} (h : standard.revive v = .ok w)
    (hv : op.accepts v) : op.accepts w := by
  cases v with
  | array items =>
    obtain ⟨revived, -, rfl⟩ := revive_array_iff.mp h
    cases op with
    | pattern | present => cases hv
    | _ => rfl
  | document entries =>
    obtain ⟨revived, -, rfl⟩ := revive_document_iff.mp h
    cases op with
    | member | notMember | pattern | present => cases hv
    | _ => rfl
  | marker m =>
    cases op with
    | member | notMember | pattern | present => cases hv
    | _ => rfl
  | _ =>
    cases h
    exact hv

theorem isCondition_of_revive {v w : Value} (h : standard.revive v = .ok w) (hv : v.isCondition) :
    w.isCondition := by
  cases v with
  | document entries =>
    obtain ⟨revived, hall, rfl⟩ := revive_document_iff.mp h
    match entries, hall with
    | [(key, v)], .cons he .nil =>
      rename_i f
      obtain ⟨hkey, hrevive⟩ := he
      obtain ⟨key', u⟩ := f
      cases hkey
      rw [Value.isCondition] at hv ⊢
      split at hv
      · rename_i op hop
        obtain ⟨hplain, haccepts⟩ := Bool.and_eq_true_iff.mp hv
        exact Bool.and_eq_true_iff.mpr
          ⟨isPlain_of_revive hrevive hplain, accepts_of_revive hrevive haccepts⟩
      · cases hv
  | _ => exact Value.isCondition_of_isPlain (isPlain_of_revive h hv)

theorem entryWellFormed_of_revive {key : String} {v w : Value} (h : standard.revive v = .ok w)
    (hkey : Token.isFieldKey key) (hv : Document.entryWellFormed key v) :
    Document.entryWellFormed key w :=
  Document.entryWellFormed_of_isCondition hkey
    (isCondition_of_revive h (Document.isCondition_of_entryWellFormed hkey hv))

/-- Reviving keeps filters well formed, and entries of filters too. The two go together: filters
stand in the arrays of connectives, and these in filters. -/
theorem wellFormed_of_revive {v w : Value} (h : standard.revive v = .ok w) :
    (Document.valueIsFilter v → Document.valueIsFilter w) ∧
      ∀ key, Document.entryWellFormed key v → Document.entryWellFormed key w := by
  induction v generalizing w with
  | array items ih =>
    refine ⟨fun hv => absurd hv (by simp [Document.valueIsFilter]), ?_⟩
    intro key hv
    by_cases hkey : Token.isFieldKey key
    · exact entryWellFormed_of_revive h hkey hv
    · obtain ⟨revived, hall, rfl⟩ := revive_array_iff.mp h
      have hfilters : Document.areFilters items → Document.areFilters revived := by
        rw [Document.areFilters_iff, Document.areFilters_iff]
        intro hitems u hu
        obtain ⟨v, hmem, hvu⟩ := exists_mem_of_forall₂ hall hu
        exact (ih v hmem hvu).1 (hitems v hmem)
      rw [Document.entryWellFormed] at hv ⊢
      split_ifs at hv ⊢
      · rw [Bool.and_eq_true, hall.length_eq] at hv
        exact Bool.and_eq_true_iff.mpr ⟨hv.1, hfilters hv.2⟩
      · rw [Bool.and_eq_true, hall.length_eq] at hv
        exact Bool.and_eq_true_iff.mpr ⟨hv.1, hfilters hv.2⟩
      · exact absurd (Bool.and_eq_true_iff.mp hv).1 hkey
  | document entries ih =>
    obtain ⟨revived, hall, rfl⟩ := revive_document_iff.mp h
    constructor
    · intro hv
      obtain ⟨hne, hkeys, hentries⟩ := Document.isFilter_iff.mp hv
      refine Document.isFilter_iff.mpr ⟨?_, by rwa [keys_of_forall₂ hall], ?_⟩
      · rintro rfl
        cases hall
        exact hne rfl
      · intro f hf
        obtain ⟨e, he, hkey, hrevive⟩ := exists_mem_of_forall₂ hall hf
        rw [← hkey]
        exact (ih e he hrevive).2 e.1 (hentries e he)
    · intro key hv
      exact entryWellFormed_of_revive h (Bool.and_eq_true_iff.mp hv).1 hv
  | _ =>
    refine ⟨fun hv => absurd hv (by simp [Document.valueIsFilter]), ?_⟩
    intro key hv
    exact entryWellFormed_of_revive h (Bool.and_eq_true_iff.mp hv).1 hv

theorem isFilter_of_revive {doc filter : Document} (h : standard.reviveDocument doc = .ok filter)
    (hdoc : doc.isFilter) : filter.isFilter := by
  have hvalue := reviveDocument_eq_ok_iff.mp h
  exact (wellFormed_of_revive hvalue).1 hdoc

end Reviver

namespace Compiler

/-- Whatever text is emitted as a document, the document is a well-formed filter. -/
theorem isFilter_of_emit {c : Compiler} {source : String} {doc : Document}
    (h : c.emit source = .ok doc) : doc.isFilter := by
  obtain ⟨q, hq, hdoc⟩ := emit_eq_ok_iff.mp h
  obtain ⟨tokens, stop, -, hspells⟩ := spells_of_parse hq
  exact Query.isFilter_of_emit hdoc hspells.canonical (isFieldKey_of_parse hq)

/-- Whatever text is compiled to a filter with the standard decoders, the filter is well formed. -/
theorem isFilter_of_compile {settings : Settings} {source : String} {filter : Document}
    (h : ({ settings } : Compiler).compile source = .ok filter) : filter.isFilter := by
  obtain ⟨doc, hdoc, hrevive⟩ := compile_eq_ok_iff.mp h
  exact Reviver.isFilter_of_revive hrevive (isFilter_of_emit hdoc)

/-- **Texts cannot name operators.** For every text and all settings, the emitted document and the
compiled filter are well formed. -/
theorem text_cannot_name_operators (settings : Settings) (source : String) :
    (∀ doc, ({ settings } : Compiler).emit source = .ok doc → doc.isFilter) ∧
      ∀ filter, ({ settings } : Compiler).compile source = .ok filter → filter.isFilter := by
  constructor
  · intro doc h
    exact isFilter_of_emit h
  · intro filter h
    exact isFilter_of_compile h

/-- Dollar signs inside names and values, a typed literal in an array, and all operators. One
conjunction is merged, and the other is not, as `d` comes twice. -/
theorem text_of_all_operators_is_filter :
    let c : Compiler := { settings := { maxDepth := 3 } }
    let source := "a$b.0 IN [1,date('2024-01-01')]||!(c~'$where'&&d NOT EXISTS&&d=null)||" ++
      "e!=1&&f>2&&g>=3&&h<4&&i<=5&&j NOT IN[]"
    let written (date : Value) : Document := [("$or", .array [
      .document [("a$b.0", .document [("$in", .array [.int 1, date])])],
      .document [("$nor", .array [.document [("$and", .array [
        .document [("c", .document [("$regex", .string "$where")])],
        .document [("d", .document [("$exists", .boolean false)])],
        .document [("d", .null)]])]])],
      .document [("e", .document [("$ne", .int 1)]), ("f", .document [("$gt", .int 2)]),
        ("g", .document [("$gte", .int 3)]), ("h", .document [("$lt", .int 4)]),
        ("i", .document [("$lte", .int 5)]), ("j", .document [("$nin", .array [])])]])]
    let marker : Value := .marker ⟨.date, "2024-01-01", some ⟨12, 30⟩⟩
    let date : Value := .date ⟨1704067200000, by decide, by decide⟩
    (∃ doc, c.emit source = .ok doc ∧ doc.same (written marker) ∧ doc.isFilter) ∧
      ∃ filter, c.compile source = .ok filter ∧ filter.same (written date) ∧ filter.isFilter := by
  intro c source written marker date
  -- One evaluation for both documents: the text is read once.
  obtain ⟨doc, hdoc, hstages⟩ := Except.exists_of_toOption_any (x := c.emit source)
    (p := fun doc => doc.same (written marker) &&
      (c.reviver.reviveDocument doc).toOption.any fun filter => filter.same (written date))
    (by decide +kernel)
  obtain ⟨hsame, hrevive⟩ := Bool.and_eq_true_iff.mp hstages
  obtain ⟨filter, hfilter, hsame'⟩ := Except.exists_of_toOption_any
    (p := fun filter : Document => filter.same (written date)) hrevive
  have hcompile := compile_eq_ok_iff.mpr ⟨doc, hdoc, hfilter⟩
  have hwell := text_cannot_name_operators c.settings source
  exact ⟨⟨doc, hdoc, hsame, hwell.1 doc hdoc⟩, filter, hcompile, hsame', hwell.2 filter hcompile⟩

end Compiler

end QueryFilter
