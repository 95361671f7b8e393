import QueryFilter.Proofs.Filter.Leaves
import QueryFilter.Proofs.Filter.OperandErrors
import QueryFilter.Proofs.Query.Markers

/-!
# Literal errors stand at the first bad literal

A query that is well formed can still fail at a typed literal: one of a kind that has no decoder, or
one that its decoder refuses. The error is then about the first such literal of the text. Reviving
walks through the document and not through the text, so its order has to be that of the text, also
in documents that were merged from several and in the arrays of connectives and of literals.

An error is therefore always the first one that is found in a list: of the markers of a document, of
the comparisons of a query. The lists are taken over from one stage to the next, and at the end the
markers are those of the tokens.

## Main definitions

* `Value.markers` — the markers in a value from left to right
* `Reviver.Refuses`, `Reviver.Rejects` — a marker or a token that a reviver refuses, and its error

## Main results

* `Reviver.fault?_revive` — the error of reviving is that of the first bad marker
* `Compiler.literalError_at_first_rejected_token` — the error of a text is that of its first bad
  literal
-/

namespace QueryFilter

/-! ### Markers of values -/

namespace Value

/-- The marker that a value is, if it is one. -/
def marker? : Value → Option Marker
  | marker m => some m
  | _ => none

/-- The markers in a value at any depth, from left to right. -/
def markers (v : Value) : List Marker := v.leaves.filterMap marker?

theorem markers_array (items : List Value) : (array items).markers = items.flatMap markers := by
  rw [markers, leaves_array, List.filterMap_flatMap]
  rfl

theorem markers_document (entries : List (String × Value)) :
    (document entries).markers = entries.flatMap fun e => e.2.markers := by
  rw [markers, leaves_document, List.filterMap_flatMap]
  rfl

end Value

/-- A typed literal becomes a marker, and nothing else does. -/
theorem Literal.markers_toValue (v : Literal) : v.toValue.markers = v.markers := by
  induction v with
  | array items ih =>
    rw [toValue, toValues_eq_map, Value.markers_array, markers_array, List.flatMap_map]
    exact List.flatMap_congr ih
  | number n =>
    cases n with
    | int n => rfl
    | float x => rfl
  | _ => rfl

/-- The markers of a document are the typed literals of its query, merged or not. -/
theorem Query.markers_of_emit {merge : Bool} {q : Query} {doc : Document}
    (h : q.emit merge = .ok doc) : (Value.document doc).markers = q.markers := by
  have hleaves : (Value.document doc).leaves = q.leaves := leaves_of_emit h
  rw [Value.markers, hleaves, leaves, List.filterMap_flatMap, markers]
  exact List.flatMap_congr fun c _ => Literal.markers_toValue c.value

/-! ### First errors -/

/-- **The error of reviving is that of the first bad marker.** -/
theorem Reviver.fault?_revive (r : Reviver) (v : Value) :
    Except.fault? (r.revive v) = v.markers.findSome? fun m => Except.fault? (r.decode m) := by
  induction v with
  | array items ih =>
    rw [revive, Except.fault?_map, reviveItems_eq_mapM, Value.markers_array,
      Except.fault?_mapM_flatMap ih]
  | document entries ih =>
    rw [revive, Except.fault?_map, reviveEntries_eq_mapM, Value.markers_document]
    refine Except.fault?_mapM_flatMap fun e he => ?_
    rw [Except.fault?_map, ih e he]
  | marker m => exact List.findSome?_singleton.symm
  | _ => rfl

/-! ### Refused markers and rejected tokens -/

/-- A marker that a reviver refuses, and the error that says so at its place: there is no decoder
for its kind, or the decoder refuses its raw text. -/
inductive Reviver.Refuses (r : Reviver) (m : Marker) : LiteralError → Prop where
  | unsupportedDate (hkind : m.kind = .date) (h : r.decoder? .date = none) :
    Refuses r m ⟨.unsupportedMarker, "$date", m.span⟩
  | unsupportedId (hkind : m.kind = .objectId) (h : r.decoder? .objectId = none) :
    Refuses r m ⟨.unsupportedMarker, "$oid", m.span⟩
  | refused {decoder : Decoder} {fault : LiteralFault} (h : r.decoder? m.kind = some decoder)
    (hraw : decoder m.raw = .error fault) : Refuses r m ⟨fault, m.raw, m.span⟩

theorem Reviver.refuses_iff {r : Reviver} {m : Marker} {e : LiteralError} :
    r.Refuses m e ↔ Except.fault? (r.decode m) = some e := by
  constructor
  · intro h
    cases h with
    | unsupportedDate hkind h | unsupportedId hkind h =>
      simp [decode, hkind, h, MarkerKind.key, Except.fault?]
    | refused h hraw => simp [decode, h, hraw, Except.fault?]
  · intro h
    rw [Except.fault?_eq_some_iff, decode] at h
    split at h
    · rename_i hdecoder
      cases h
      cases hkind : m.kind with
      | date => exact .unsupportedDate hkind (hkind ▸ hdecoder)
      | objectId => exact .unsupportedId hkind (hkind ▸ hdecoder)
    · rename_i decoder hdecoder
      split at h
      · cases h
      · rename_i fault hraw
        cases h
        exact .refused hdecoder hraw

/-- A typed literal that a reviver refuses, and the error that says so at its place: there is no
decoder for its kind, or the decoder refuses its raw text. -/
inductive Reviver.Rejects (r : Reviver) : Token → LiteralError → Prop where
  | unsupportedDate {raw : String} {span : Span} (h : r.decoder? .date = none) :
    Rejects r ⟨.marker .date raw, span⟩ ⟨.unsupportedMarker, "$date", some span⟩
  | unsupportedId {raw : String} {span : Span} (h : r.decoder? .objectId = none) :
    Rejects r ⟨.marker .objectId raw, span⟩ ⟨.unsupportedMarker, "$oid", some span⟩
  | refused {kind : MarkerKind} {raw : String} {span : Span} {decoder : Decoder}
    {fault : LiteralFault} (h : r.decoder? kind = some decoder)
    (hraw : decoder raw = .error fault) :
    Rejects r ⟨.marker kind raw, span⟩ ⟨fault, raw, some span⟩

/-- The error of a token is the error of its marker. -/
def Reviver.rejection? (r : Reviver) (token : Token) : Option LiteralError :=
  token.marker?.bind fun m => Except.fault? (r.decode m)

theorem Reviver.rejects_iff {r : Reviver} {token : Token} {e : LiteralError} :
    r.Rejects token e ↔ r.rejection? token = some e := by
  constructor
  · intro h
    cases h with
    | @unsupportedDate raw span h =>
      exact refuses_iff.mp (.unsupportedDate (m := ⟨.date, raw, some span⟩) rfl h)
    | @unsupportedId raw span h =>
      exact refuses_iff.mp (.unsupportedId (m := ⟨.objectId, raw, some span⟩) rfl h)
    | @refused kind raw span _ _ h hraw =>
      exact refuses_iff.mp (.refused (m := ⟨kind, raw, some span⟩) h hraw)
  · intro h
    obtain ⟨m, hm, hfault⟩ := Option.bind_eq_some_iff.mp h
    obtain ⟨kind, span⟩ := token
    cases kind with
    | marker kind raw =>
      cases hm
      cases refuses_iff.mpr hfault with
      | unsupportedDate hkind hdecoder =>
        cases hkind
        exact .unsupportedDate hdecoder
      | unsupportedId hkind hdecoder =>
        cases hkind
        exact .unsupportedId hdecoder
      | refused hdecoder hraw => exact .refused hdecoder hraw
    | _ => cases hm

/-- The first error of several tokens is that of the first token that is rejected. -/
theorem Reviver.findSome?_rejection?_eq_some_iff {r : Reviver} {tokens : List Token}
    {e : LiteralError} : tokens.findSome? r.rejection? = some e ↔
      ∃ before t after, tokens = before ++ t :: after ∧
        (∀ u ∈ before, ∀ e', ¬ r.Rejects u e') ∧ r.Rejects t e := by
  have hrejects : ∀ t e, r.Rejects t e ↔ r.rejection? t = some e := fun _ _ => rejects_iff
  exact Except.findSome?_eq_some_iff_first hrejects

namespace Compiler

/-- The same compiler with the given choice about conjunctions. -/
def merging (c : Compiler) (merge : Bool) : Compiler :=
  { c with settings := { c.settings with mergeConjunctions := merge } }

/-- The typed literals of a parsed tree are those of the tokens of the text. -/
theorem markers_of_parse {c : Compiler} {source : String} {tokens : List Token} {q : Query}
    (htokens : Token.ofText source = .ok tokens) (h : c.parse source = .ok q) :
    q.markers = tokens.filterMap Token.marker? := by
  obtain ⟨found, hfound, hq⟩ := parse_eq_ok_iff.mp h
  rw [htokens] at hfound
  cases hfound
  obtain ⟨front, stop, rfl, hend⟩ := Token.exists_front_of_ofText htokens
  rw [Query.markers_of_ofTokens hend (by simp) hq, List.filterMap_append]
  exact (List.append_nil _).symm

/-- The error of a text that has a tree: that of the first bad comparison, or else that of the first
bad typed literal. -/
theorem fault?_compile_of_parse {c : Compiler} {source : String} {q : Query}
    (h : c.parse source = .ok q) : Except.fault? (c.compile source) =
      ((q.comparisons.findSome? fun d => Except.fault? d.emit).map .operand).or
        ((q.markers.findSome? fun m => Except.fault? (c.reviver.decode m)).map .literal) := by
  rw [← Query.fault?_emit c.settings.mergeConjunctions, compile_eq_bind, emit_eq_bind, h]
  change Except.fault?
    ((q.emit c.settings.mergeConjunctions).mapError CompileError.operand >>= _) = _
  cases hdoc : q.emit c.settings.mergeConjunctions with
  | error e => rfl
  | ok doc =>
    rw [← Query.markers_of_emit hdoc, ← Reviver.fault?_revive, Reviver.revive, Except.fault?_map]
    exact Except.fault?_mapError _

/-- Neither whether there is an error, nor which, depends on the merging of conjunctions. -/
theorem fault?_compile_merging (c : Compiler) (merge : Bool) (source : String) :
    Except.fault? ((c.merging merge).compile source) = Except.fault? (c.compile source) := by
  cases hparse : c.parse source with
  | error e =>
    have hmerging : (c.merging merge).parse source = .error e := hparse
    rw [compile_eq_bind, compile_eq_bind, emit_eq_bind, emit_eq_bind, hparse, hmerging]
    rfl
  | ok q =>
    have hmerging : (c.merging merge).parse source = .ok q := hparse
    rw [fault?_compile_of_parse hparse, fault?_compile_of_parse hmerging]
    rfl

/-- The error of a text that is emitted is the first error of one of its tokens. -/
theorem fault?_compile {c : Compiler} {source : String} {tokens : List Token} {doc : Document}
    (htokens : Token.ofText source = .ok tokens) (hemit : c.emit source = .ok doc) :
    Except.fault? (c.compile source) = (tokens.findSome? c.reviver.rejection?).map .literal := by
  obtain ⟨q, hq, hdoc⟩ := emit_eq_ok_iff.mp hemit
  have hfirst : (tokens.filterMap Token.marker?).findSome?
      (fun m => Except.fault? (c.reviver.decode m)) = tokens.findSome? c.reviver.rejection? := by
    rw [← List.head?_filterMap, ← List.head?_filterMap, List.filterMap_filterMap]
    rfl
  rw [fault?_compile_of_parse hq, ← Query.fault?_emit c.settings.mergeConjunctions, hdoc,
    markers_of_parse htokens hq, hfirst]
  rfl

/-- **A literal error is about the first bad typed literal.** A text that is emitted fails to be
compiled if and only if one of its tokens is rejected, and the error is that of the first of them.
Whether there is an error of any kind, and which, does not depend on the merging of conjunctions. -/
theorem literalError_at_first_rejected_token (c : Compiler) (source : String) :
    (∀ tokens doc, Token.ofText source = .ok tokens → c.emit source = .ok doc →
      ((∃ e, c.compile source = .error e) ↔ ∃ t ∈ tokens, ∃ error, c.reviver.Rejects t error) ∧
        ∀ e, c.compile source = .error e ↔
          ∃ before t after error, tokens = before ++ t :: after ∧
            (∀ u ∈ before, ∀ error', ¬ c.reviver.Rejects u error') ∧
            c.reviver.Rejects t error ∧ e = .literal error) ∧
      ∀ merge e, (c.merging merge).compile source = .error e ↔ c.compile source = .error e := by
  constructor
  · intro tokens doc htokens hemit
    have herror : ∀ e, c.compile source = .error e ↔
        ∃ error, tokens.findSome? c.reviver.rejection? = some error ∧ .literal error = e := by
      intro e
      rw [← Except.fault?_eq_some_iff, fault?_compile htokens hemit, Option.map_eq_some_iff]
    constructor
    · constructor
      · rintro ⟨e, he⟩
        obtain ⟨error, hfirst, -⟩ := (herror e).mp he
        obtain ⟨t, ht, hreject⟩ := List.exists_of_findSome?_eq_some hfirst
        exact ⟨t, ht, error, Reviver.rejects_iff.mpr hreject⟩
      · rintro ⟨t, ht, error, hreject⟩
        have hsome : (tokens.findSome? c.reviver.rejection?).isSome := by
          rw [List.findSome?_isSome_iff]
          exact ⟨t, ht, by rw [Reviver.rejects_iff.mp hreject]; rfl⟩
        obtain ⟨first, hfirst⟩ := Option.isSome_iff_exists.mp hsome
        exact ⟨.literal first, (herror _).mpr ⟨first, hfirst, rfl⟩⟩
    · intro e
      rw [herror]
      simp only [Reviver.findSome?_rejection?_eq_some_iff]
      constructor
      · rintro ⟨error, ⟨before, t, after, heq, hbefore, ht⟩, rfl⟩
        exact ⟨before, t, after, error, heq, hbefore, ht, rfl⟩
      · rintro ⟨before, t, after, error, heq, hbefore, ht, rfl⟩
        exact ⟨error, ⟨before, t, after, heq, hbefore, ht⟩, rfl⟩
  · intro merge e
    rw [← Except.fault?_eq_some_iff, fault?_compile_merging, Except.fault?_eq_some_iff]

/-- In `a IN [date('2020-01-01'), oid('zz')] AND b = date('zz')` the second typed literal is the
first bad one. -/
theorem literalError_at_bad_item :
    let source := "a IN [date('2020-01-01'), oid('zz')] AND b = date('zz')"
    let error : LiteralError := ⟨.invalidId, "zz", some ⟨26, 35⟩⟩
    ∃ tokens doc, Token.ofText source = .ok tokens ∧ ({} : Compiler).emit source = .ok doc ∧
      ({} : Compiler).compile source = .error (.literal error) ∧
      ∃ before t after, tokens = before ++ t :: after ∧
        (∀ u ∈ before, ∀ e, ¬ Reviver.standard.Rejects u e) ∧
        Reviver.standard.Rejects t error := by
  intro source error
  obtain ⟨tokens, htokens, -⟩ := Except.exists_of_toOption_any (p := fun _ => true)
    (x := Token.ofText source) (by decide +kernel)
  obtain ⟨doc, hdoc, -⟩ := Except.exists_of_toOption_any (p := fun _ => true)
    (x := ({} : Compiler).emit source) (by decide +kernel)
  have hfault : Except.fault? (({} : Compiler).compile source) = some (.literal error) := by
    decide +kernel
  have herror := Except.fault?_eq_some_iff.mp hfault
  obtain ⟨before, t, after, e, heq, hbefore, ht, he⟩ :=
    (((literalError_at_first_rejected_token {} source).1 tokens doc htokens hdoc).2 _).mp herror
  cases he
  exact ⟨tokens, doc, htokens, hdoc, herror, before, t, after, heq, hbefore, ht⟩

end Compiler

end QueryFilter
