import QueryFilter.Proofs.Filter.ExtendedJson
import QueryFilter.Proofs.Filter.Leaves
import QueryFilter.Proofs.Filter.WellFormed

/-!
# Compiled filters read back from JSON

The filter of a query is written as JSON to be kept or sent, and read back with its typed literals
decoded. It comes back as it was, keys in order, if the query has no doubles and its dates are in
years of four digits: a well-formed filter has no document that would be read as a typed literal.

There is one exception. The reader of JSON refuses containers that are nested more than 127 deep,
and every negation is written as two of them. So the limit on the nesting of queries, which is 64
unless it is set, lets through filters that are not read back. What is stated here is the exact
condition.

## Main definitions

* `TokenKind.isPortable` — the tokens of queries whose filters lose nothing in JSON

## Main results

* `Compiler.isPortable_of_compile` — nothing of a compiled filter is lost
* `Compiler.readsBack_iff_nesting_le` — compiled filters are read back unless they are nested too
  deep
-/

namespace QueryFilter

/-- Whether a token means no double, and no date outside of the years 0 to 9999. -/
def TokenKind.isPortable : TokenKind → Bool
  | number (.float _) => false
  | marker .date raw => (Instant.ofText? raw).all Instant.hasPlainYear
  | _ => true

/-! ### Well-formed filters are portable -/

namespace Value

theorem isPortable_of_isPlain {v : Value} (hv : v.isPlain)
    (hleaves : ∀ leaf ∈ v.leaves, leaf.isPortable) : v.isPortable := by
  induction v with
  | array items ih =>
    rw [isPlain_array_iff] at hv
    rw [leaves_array] at hleaves
    exact isPortable_array_iff.mpr fun v hmem => ih v hmem (hv v hmem) fun leaf hleaf =>
      hleaves leaf (List.mem_flatMap.mpr ⟨v, hmem, hleaf⟩)
  | document entries _ => cases hv
  | _ => exact hleaves _ (List.mem_singleton_self _)

/-- The key of an operator is not that of a typed literal. -/
theorem ofKey?_of_ofKeyword? {key : String} {op : CompareOp}
    (h : CompareOp.ofKeyword? key = some op) : MarkerKind.ofKey? key = none := by
  rw [← CompareOp.keyword_of_ofKeyword? h]
  cases op with
  | _ => decide

theorem isPortable_of_isCondition {v : Value} (hv : v.isCondition)
    (hleaves : ∀ leaf ∈ v.leaves, leaf.isPortable) : v.isPortable := by
  cases v with
  | document entries =>
    match entries with
    | [(key, v)] =>
      rw [isCondition] at hv
      split at hv
      · rename_i op hop
        rw [leaves_document, List.flatMap_singleton] at hleaves
        refine isPortable_document_iff.mpr ⟨List.nodup_singleton key, ?_, ?_⟩
        · exact Document.isEnvelope_eq_false
            (List.forall_mem_singleton.mpr fun _ _ => ofKey?_of_ofKeyword? hop)
        · exact List.forall_mem_singleton.mpr
            (isPortable_of_isPlain (Bool.and_eq_true_iff.mp hv).1 hleaves)
      · cases hv
  | _ => exact isPortable_of_isPlain hv hleaves

/-- The key of a field is not that of a typed literal. -/
theorem ofKey?_of_isFieldKey {key : String} (h : Token.isFieldKey key) :
    MarkerKind.ofKey? key = none := by
  have hdollar := Token.head?_ne_dollar_of_isFieldKey h
  rw [MarkerKind.ofKey?, if_neg, if_neg]
  · rintro rfl
    exact hdollar (by decide)
  · rintro rfl
    exact hdollar (by decide)

/-- A well-formed filter is portable if its leaves are, and so is what stands in an entry of one. -/
theorem isPortable_of_wellFormed (v : Value) :
    (Document.valueIsFilter v → (∀ leaf ∈ v.leaves, leaf.isPortable) → v.isPortable) ∧
      ∀ key, Document.entryWellFormed key v → (∀ leaf ∈ v.leaves, leaf.isPortable) →
        v.isPortable := by
  induction v with
  | array items ih =>
    refine ⟨fun hv => absurd hv (by simp [Document.valueIsFilter]), ?_⟩
    intro key hv hleaves
    by_cases hkey : Token.isFieldKey key
    · exact isPortable_of_isCondition (Document.isCondition_of_entryWellFormed hkey hv) hleaves
    · -- under a connective stand filters
      have hfilters : Document.areFilters items := by
        rw [Document.entryWellFormed] at hv
        split_ifs at hv
        · exact (Bool.and_eq_true_iff.mp hv).2
        · exact (Bool.and_eq_true_iff.mp hv).2
        · exact absurd (Bool.and_eq_true_iff.mp hv).1 hkey
      rw [leaves_array] at hleaves
      exact isPortable_array_iff.mpr fun v hmem =>
        (ih v hmem).1 (Document.areFilters_iff.mp hfilters v hmem) fun leaf hleaf =>
          hleaves leaf (List.mem_flatMap.mpr ⟨v, hmem, hleaf⟩)
  | document entries ih =>
    constructor
    · intro hv hleaves
      obtain ⟨-, hkeys, hentries⟩ := Document.isFilter_iff.mp hv
      rw [leaves_document] at hleaves
      refine isPortable_document_iff.mpr ⟨hkeys, Document.isEnvelope_eq_false ?_, ?_⟩
      · intro e he text htext
        have hentry := hentries e he
        rw [htext] at hentry
        exact ofKey?_of_isFieldKey (Bool.and_eq_true_iff.mp hentry).1
      · intro e he
        exact (ih e he).2 e.1 (hentries e he) fun leaf hleaf =>
          hleaves leaf (List.mem_flatMap.mpr ⟨e, he, hleaf⟩)
    · intro key hv hleaves
      exact isPortable_of_isCondition (Bool.and_eq_true_iff.mp hv).2 hleaves
  | _ =>
    exact ⟨fun _ hleaves => hleaves _ (List.mem_singleton_self _),
      fun _ _ hleaves => hleaves _ (List.mem_singleton_self _)⟩

/-- What a leaf is revived to is portable, if the token that spells it is. -/
theorem isPortable_of_revive {leaf revived : Value} {kinds : List TokenKind}
    (hleaf : leaf.IsSpelled kinds) (hkinds : ∀ kind ∈ kinds, kind.isPortable)
    (h : Reviver.standard.revive leaf = .ok revived) : revived.isPortable := by
  cases leaf with
  | double x => exact absurd (hkinds _ hleaf) Bool.false_ne_true
  | marker m =>
    have hdecode : Reviver.standard.decode m = .ok revived := h
    rcases Reviver.decode_standard_cases hdecode with ⟨i, hkind, hraw, rfl⟩ | ⟨id, -, -, rfl⟩
    · have htoken := hkinds _ hleaf
      rw [hkind, TokenKind.isPortable, hraw] at htoken
      exact htoken
    · rfl
  | date i | objectId id | array items | document entries => exact hleaf.elim
  | _ =>
    cases h
    rfl

end Value

namespace Compiler

/-- **Nothing of a compiled filter is lost**, if the tokens of its text are portable. -/
theorem isPortable_of_compile {settings : Settings} {source : String} {tokens : List Token}
    {filter : Document} (htokens : Token.ofText source = .ok tokens)
    (hportable : ∀ t ∈ tokens, t.kind.isPortable)
    (h : ({ settings } : Compiler).compile source = .ok filter) :
    (Value.document filter).isPortable := by
  obtain ⟨doc, hdoc, hrevive⟩ := compile_eq_ok_iff.mp h
  obtain ⟨q, hq, hemit⟩ := emit_eq_ok_iff.mp hdoc
  obtain ⟨front, stop, hfront, hspells⟩ := spells_of_parse hq
  cases htokens.symm.trans hfront
  refine (Value.isPortable_of_wellFormed _).1 (isFilter_of_compile h) ?_
  intro leaf hleaf
  have hvalue := Reviver.reviveDocument_eq_ok_iff.mp hrevive
  obtain ⟨old, hold, hleaf⟩ := Reviver.exists_leaf_of_revive hvalue hleaf
  have hmem : old ∈ q.leaves := by
    rw [← Query.leaves_of_emit hemit]
    exact hold
  have hspelled := Query.isSpelled_of_mem_leaves hspells.canonical hmem
  rw [hspells.render_eq] at hspelled
  refine Value.isPortable_of_revive hspelled ?_ hleaf
  intro kind hkind
  obtain ⟨t, ht, rfl⟩ := List.mem_map.mp hkind
  exact hportable t (List.mem_append_left _ ht)

/-- What a compiled filter is read back to: itself, or an error if it is nested too deep. -/
theorem ofText_of_compile {settings : Settings} {source : String} {tokens : List Token}
    {filter : Document} (htokens : Token.ofText source = .ok tokens)
    (hportable : ∀ t ∈ tokens, t.kind.isPortable)
    (h : ({ settings } : Compiler).compile source = .ok filter) :
    (filter.toJson.nesting ≤ Json.maxDepth →
        Reviver.standard.ofText filter.toJson.compact = .ok filter) ∧
      (¬ filter.toJson.nesting ≤ Json.maxDepth → ∃ left,
        Reviver.standard.ofText filter.toJson.compact =
          .error ⟨.invalidJson, (Json.Fault.mk .tooDeep left).message filter.toJson.write,
            none⟩) := by
  obtain ⟨hfits, hdeep⟩ := Reviver.ofText_compact (isPortable_of_compile htokens hportable h)
  refine ⟨?_, hdeep⟩
  intro hle
  obtain ⟨doc, -, hrevive⟩ := compile_eq_ok_iff.mp h
  -- No marker is left in the filter, so it is revived to itself.
  have hmarkers : (Value.document filter).hasMarkers = false :=
    Reviver.hasMarkers_of_revive (fun _ _ => Reviver.hasMarkers_of_decode_standard)
      (Reviver.reviveDocument_eq_ok_iff.mp hrevive)
  have hagain : Reviver.standard.reviveDocument filter = .ok filter :=
    Reviver.reviveDocument_eq_ok_iff.mpr (Reviver.revive_of_hasMarkers_eq_false hmarkers)
  rw [hfits hle, hagain]
  rfl

/-- **Compiled filters are read back unless they are nested too deep.** For every text without
doubles and with dates in years of four digits only, the filter is read back from its JSON text if
and only if that has at most 127 containers open at any place; otherwise the reader reports too much
nesting. -/
theorem readsBack_iff_nesting_le (settings : Settings) (source : String) (tokens : List Token)
    (filter : Document) (htokens : Token.ofText source = .ok tokens)
    (hportable : ∀ t ∈ tokens, t.kind.isPortable)
    (h : ({ settings } : Compiler).compile source = .ok filter) :
    (Reviver.standard.ofText filter.toJson.compact = .ok filter ↔ filter.toJson.nesting ≤ 127) ∧
      (127 < filter.toJson.nesting → ∃ left, Reviver.standard.ofText filter.toJson.compact =
        .error ⟨.invalidJson, (Json.Fault.mk .tooDeep left).message filter.toJson.write,
          none⟩) := by
  obtain ⟨hfits, hdeep⟩ := ofText_of_compile htokens hportable h
  constructor
  · constructor
    · intro hread
      by_contra hle
      obtain ⟨left, herror⟩ := hdeep hle
      rw [hread] at herror
      cases herror
    · exact hfits
  · intro hlt
    exact hdeep (Nat.not_le.mpr hlt)

/-- An escaped string, a date with an offset, an id, the least integer, and an empty array in
negations. -/
theorem readsBack_of_all_kinds :
    let source := "a='\\n\"'&&b<date('1999-12-31T23:59:59.5+01:00')&&!(b IN[[],null]||c=" ++
      "oid('65a0b1c2d3e4f5a6b7c8d9e0')||c>=-9223372036854775808)"
    ∃ tokens filter, Token.ofText source = .ok tokens ∧ (∀ t ∈ tokens, t.kind.isPortable) ∧
      ({} : Compiler).compile source = .ok filter ∧
        Reviver.standard.ofText filter.toJson.compact = .ok filter := by
  intro source
  obtain ⟨tokens, htokens, hportable⟩ := Except.exists_of_toOption_any (x := Token.ofText source)
    (p := fun tokens => tokens.all (·.kind.isPortable)) (by decide +kernel)
  obtain ⟨filter, hfilter, hnesting⟩ := Except.exists_of_toOption_any
    (x := ({} : Compiler).compile source) (p := fun filter => filter.toJson.nesting ≤ 127)
    (by decide +kernel)
  have htokens' := List.all_eq_true.mp hportable
  exact ⟨tokens, filter, htokens, htokens', hfilter,
    (readsBack_iff_nesting_le {} source tokens filter htokens htokens' hfilter).1.mpr
      (of_decide_eq_true hnesting)⟩

/-- 64 negations are not too many for a query, but their filter is not read back. -/
theorem deepest_negation_not_readBack :
    let source := String.ofList (List.replicate 64 '!') ++ "a = 1"
    ∃ tokens filter, Token.ofText source = .ok tokens ∧ (∀ t ∈ tokens, t.kind.isPortable) ∧
      ({} : Compiler).compile source = .ok filter ∧
        Reviver.standard.ofText filter.toJson.compact ≠ .ok filter := by
  intro source
  obtain ⟨tokens, htokens, hportable⟩ := Except.exists_of_toOption_any (x := Token.ofText source)
    (p := fun tokens => tokens.all (·.kind.isPortable)) (by decide +kernel)
  obtain ⟨filter, hfilter, hnesting⟩ := Except.exists_of_toOption_any
    (x := ({} : Compiler).compile source) (p := fun filter => 127 < filter.toJson.nesting)
    (by decide +kernel)
  have htokens' := List.all_eq_true.mp hportable
  obtain ⟨left, herror⟩ := (ofText_of_compile htokens htokens' hfilter).2
    (Nat.not_le.mpr (of_decide_eq_true hnesting))
  refine ⟨tokens, filter, htokens, htokens', hfilter, ?_⟩
  rw [herror]
  exact fun h => nomatch h

end Compiler

end QueryFilter
