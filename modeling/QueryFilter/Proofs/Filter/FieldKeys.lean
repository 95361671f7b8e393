import QueryFilter.Proofs.Filter.Conditions
import QueryFilter.Proofs.Filter.Replacement
import QueryFilter.Proofs.Text.Positions

/-!
# Fields keep their spelling

A field is cut at its dots when it is read and joined again when it becomes a key. Cutting and
joining are inverse to each other, so the key is the text of the field as it stands in the query,
and two fields share a key only if they are spelled alike. This is what the check for repeated keys
rests on, by which conjunctions are merged or not.

The keys are followed through all stages, by listing them in order: the fields of the tokens, those
of the tree that they spell, and the keys of the conditions of its filter. The literals of the query
have no part in it, and neither have the decoders that make values of them, whatever these make.

## Main definitions

* `Token.field?` — the text of a field
* `Document.conditionKeys` — the keys of a filter's conditions from left to right

## Main results

* `FieldPath.length_segments_ofDotted` — a text has one segment more than dots
* `Query.fields_render` — the fields of a tree are those of the tokens that spell it
* `Query.conditionKeys_of_emit`, `Query.conditionKeys_of_replaceMarkers` — the keys of a filter are
  the fields of its tree, before and after it is revived
* `Compiler.field_paths_keep_spelling` — paths and their spelling, from the text to the filter
-/

namespace QueryFilter

/-! ### Paths -/

namespace FieldPath

/-- A text has one segment more than dots. -/
theorem length_segments_ofDotted (text : String) :
    (ofDotted text).segments.length = text.toList.count '.' + 1 := by
  rw [ofDotted, List.length_map, Text.length_pieces]

/-- Fields have the same key if and only if they are spelled alike. -/
theorem dotted_ofDotted_inj {text other : String} :
    (ofDotted text).dotted = (ofDotted other).dotted ↔ text = other := by
  rw [dotted_ofDotted, dotted_ofDotted]

end FieldPath

/-! ### The fields of tokens -/

/-- The text of a field. -/
def TokenKind.field? : TokenKind → Option String
  | .field text => some text
  | _ => none

/-- The text of a token that is a field. -/
def Token.field? (token : Token) : Option String := token.kind.field?

/-- What is listed of parts with separators between them is listed of the parts, if it is nothing
of the separators. -/
theorem filterMap_intercalate {α β : Type} {f : α → Option β} {separator : List α}
    (h : separator.filterMap f = []) (parts : List (List α)) :
    (separator.intercalate parts).filterMap f = parts.flatMap (List.filterMap f) := by
  cases parts with
  | nil => rfl
  | cons first parts =>
    rw [intercalate_cons, List.filterMap_append, List.filterMap_flatMap, List.flatMap_cons]
    refine congrArg (first.filterMap f ++ ·) (List.flatMap_congr fun part _ => ?_)
    rw [List.filterMap_append, h, List.nil_append]

/-- A literal is spelled without fields. -/
theorem Literal.fields_render (v : Literal) : v.render.filterMap TokenKind.field? = [] := by
  induction v with
  | array items ih =>
    have hitems : ([.comma].intercalate (items.map render)).filterMap TokenKind.field? = [] := by
      rw [filterMap_intercalate rfl, List.flatMap_map, List.flatMap_eq_nil_iff]
      exact ih
    rw [render_array, List.cons_append, List.filterMap_cons_none rfl, List.filterMap_append, hitems]
    rfl
  | _ => rfl

/-- A comparison is spelled with its field, and no other. -/
theorem Comparison.fields_render (c : Comparison) :
    c.render.filterMap TokenKind.field? = [c.field.dotted] := by
  have hop : c.op.render.filterMap TokenKind.field? = [] := by cases c.op <;> rfl
  have hfield : (TokenKind.field c.field.dotted).field? = some c.field.dotted := rfl
  rw [render, List.filterMap_cons_some hfield, List.cons_inj_right]
  split
  · rfl
  · rfl
  · rw [List.filterMap_append, hop, Literal.fields_render]
    rfl

/-- **The fields of a tree are those of the tokens that spell it**, in the same order. -/
theorem Query.fields_render (q : Query) :
    q.render.filterMap TokenKind.field? = q.comparisons.map fun c => c.field.dotted := by
  have hchain : ∀ (separator : TokenKind) (operands : List Query), separator.field? = none →
      (∀ q ∈ operands, q.render.filterMap TokenKind.field? =
        q.comparisons.map fun c => c.field.dotted) →
      ([separator].intercalate (operands.map render)).filterMap TokenKind.field? =
        (allComparisons operands).map fun c => c.field.dotted := by
    intro separator operands hseparator ih
    rw [filterMap_intercalate (List.filterMap_cons_none hseparator), List.flatMap_map,
      allComparisons_eq_flatMap, List.map_flatMap]
    exact List.flatMap_congr ih
  induction q with
  | comparison c => exact c.fields_render
  | and operands ih =>
    rw [render_and]
    exact hchain .and operands rfl ih
  | or operands ih =>
    rw [render_or]
    exact hchain .or operands rfl ih
  | not operand ih => exact ih
  | group content ih =>
    rw [render, List.cons_append, List.filterMap_cons_none rfl, List.filterMap_append, ih]
    exact List.append_nil _

/-! ### The keys of filters -/

namespace Document

/-- The keys of a filter's conditions from left to right. -/
def conditionKeys (doc : Document) : List String := (conditions doc).map Prod.fst

theorem conditionKeys_flatten (docs : List Document) :
    conditionKeys docs.flatten = docs.flatMap conditionKeys := by
  rw [conditionKeys, conditions_flatten, List.map_flatMap]
  rfl

theorem conditionKeys_connective {key : String} (hkey : key ∈ connectives)
    (docs : List Document) :
    conditionKeys [(key, .array (docs.map .document))] = docs.flatMap conditionKeys := by
  rw [conditionKeys, conditions_connective hkey, List.map_flatMap]
  rfl

theorem conditionKeys_field {key : String} (hkey : key ∉ connectives) (v : Value) :
    conditionKeys [(key, v)] = [key] := by
  rw [conditionKeys, conditions_field hkey, List.map_singleton]

/-! Markers are replaced in each document for itself. -/

variable (f : Marker → Value)

theorem replaceMarkers_eq_map (doc : Document) :
    replaceMarkers f doc = doc.map fun e => (e.1, e.2.replaceMarkers f) :=
  Value.document.inj (Value.replaceMarkers_document f doc)

theorem replaceMarkers_flatten (docs : List Document) :
    replaceMarkers f docs.flatten = (docs.map (replaceMarkers f)).flatten := by
  rw [replaceMarkers_eq_map, List.map_flatten]
  exact congrArg List.flatten (List.map_congr_left fun doc _ => (replaceMarkers_eq_map f doc).symm)

theorem replaceMarkers_connective (key : String) (docs : List Document) :
    replaceMarkers f [(key, .array (docs.map .document))] =
      [(key, .array ((docs.map (replaceMarkers f)).map .document))] := by
  rw [replaceMarkers_eq_map, List.map_singleton, Value.replaceMarkers_array, List.map_map,
    List.map_map]
  rfl

end Document

namespace Query

variable {merge : Bool} {q : Query} {doc : Document}

/-- **The keys of a filter are the fields of its tree**, in the same order. -/
theorem conditionKeys_of_emit (hkeys : q.FieldsOnly) (h : q.emit merge = .ok doc) :
    doc.conditionKeys = q.comparisons.map fun c => c.field.dotted := by
  rw [Document.conditionKeys, conditions_of_emit hkeys h, List.map_map]
  rfl

/-- The keys stay the same, whatever is put in the place of markers: an array that a decoder makes
does not stand under a connective. -/
theorem conditionKeys_of_replaceMarkers (f : Marker → Value) (hkeys : q.FieldsOnly)
    (h : q.emit merge = .ok doc) :
    (doc.replaceMarkers f).conditionKeys = q.comparisons.map fun c => c.field.dotted := by
  have hflatten : ∀ docs : List Document, (Document.replaceMarkers f docs.flatten).conditionKeys =
      docs.flatMap fun doc => (doc.replaceMarkers f).conditionKeys := by
    intro docs
    rw [Document.replaceMarkers_flatten, Document.conditionKeys_flatten, List.flatMap_map]
  have hconnective : ∀ key ∈ Document.connectives, ∀ docs : List Document,
      (Document.replaceMarkers f [(key, .array (docs.map .document))]).conditionKeys =
        docs.flatMap fun doc => (doc.replaceMarkers f).conditionKeys := by
    intro key hkey docs
    rw [Document.replaceMarkers_connective, Document.conditionKeys_connective hkey,
      List.flatMap_map]
  have hfield : ∀ c ∈ q.comparisons,
      (Document.replaceMarkers f [(c.field.dotted, c.operand)]).conditionKeys =
        [c.field.dotted] := by
    intro c hc
    rw [Document.replaceMarkers_eq_map]
    exact Document.conditionKeys_field (hkeys c hc) _
  have hview := @view_of_emit String (fun doc => (doc.replaceMarkers f).conditionKeys)
    hflatten hconnective merge q doc h
  rw [hview, List.flatMap_congr hfield, List.map_eq_flatMap]

end Query

/-! ### From the text to the filter -/

namespace Compiler

variable {c : Compiler} {source : String} {tokens : List Token}

/-- The fields of a parsed tree are those of the tokens of the text. -/
theorem fields_of_parse {q : Query} (htokens : Token.ofText source = .ok tokens)
    (h : c.parse source = .ok q) :
    q.comparisons.map (fun c => c.field.dotted) = tokens.filterMap Token.field? := by
  obtain ⟨front, stop, htext, hspells⟩ := spells_of_parse h
  cases htokens.symm.trans htext
  have hfront : (front.map Token.kind).filterMap TokenKind.field? =
      front.filterMap Token.field? := by
    rw [List.filterMap_map]
    rfl
  rw [← Query.fields_render, hspells.render_eq, hfront, List.filterMap_append]
  exact (List.append_nil _).symm

/-- **Emitted documents** have the fields of the text as their keys, as they are spelled there. -/
theorem conditionKeys_of_emit {doc : Document} (htokens : Token.ofText source = .ok tokens)
    (h : c.emit source = .ok doc) : doc.conditionKeys = tokens.filterMap Token.field? := by
  obtain ⟨q, hq, hdoc⟩ := emit_eq_ok_iff.mp h
  rw [Query.conditionKeys_of_emit (Query.fieldsOnly_of_parse hq) hdoc, fields_of_parse htokens hq]

/-- **Compiled filters** have them as well, whatever the decoders make of typed literals. -/
theorem conditionKeys_of_compile {filter : Document} (htokens : Token.ofText source = .ok tokens)
    (h : c.compile source = .ok filter) :
    filter.conditionKeys = tokens.filterMap Token.field? := by
  obtain ⟨doc, hdoc, hrevive⟩ := compile_eq_ok_iff.mp h
  obtain ⟨q, hq, hemit⟩ := emit_eq_ok_iff.mp hdoc
  obtain ⟨f, -, rfl⟩ :=
    ((Reviver.replaces_reviveDocument c.reviver).eq_ok_iff doc filter).mp hrevive
  rw [Query.conditionKeys_of_replaceMarkers f (Query.fieldsOnly_of_parse hq) hemit,
    fields_of_parse htokens hq]

/-- **Fields keep their spelling.** Every text is cut at its dots into segments that have no dots,
one more than there are dots, and joining them gives the text back. The other way round, segments
without dots, if there is at least one, are found again in the text that joins them. So the key of
a field is its text: two fields have the same key if and only if they are the same text, and the
keys of emitted documents and of compiled filters, from left to right, are the fields of the query
as they stand in it. -/
theorem field_paths_keep_spelling :
    (∀ text : String,
      (FieldPath.ofDotted text).dotted = text ∧
        (FieldPath.ofDotted text).segments.length = text.toList.count '.' + 1 ∧
        ∀ s ∈ (FieldPath.ofDotted text).segments, '.' ∉ s.toList) ∧
    (∀ segments : List String, segments ≠ [] → (∀ s ∈ segments, '.' ∉ s.toList) →
      (FieldPath.ofDotted (FieldPath.mk segments).dotted).segments = segments) ∧
    (∀ text other : String,
      (FieldPath.ofDotted text).dotted = (FieldPath.ofDotted other).dotted ↔ text = other) ∧
    ∀ (c : Compiler) (source : String) (tokens : List Token),
      Token.ofText source = .ok tokens →
        (∀ doc, c.emit source = .ok doc →
          doc.conditionKeys = tokens.filterMap Token.field?) ∧
        ∀ filter, c.compile source = .ok filter →
          filter.conditionKeys = tokens.filterMap Token.field? := by
  refine ⟨fun text => ?_, fun segments hne hdots => ?_, fun text other => ?_,
    fun c source tokens htokens => ?_⟩
  · obtain ⟨-, hdots⟩ := FieldPath.isProper_iff.mp (FieldPath.isProper_ofDotted text)
    exact ⟨FieldPath.dotted_ofDotted text, FieldPath.length_segments_ofDotted text, hdots⟩
  · have hproper : (FieldPath.mk segments).isProper := FieldPath.isProper_iff.mpr ⟨hne, hdots⟩
    rw [FieldPath.ofDotted_dotted hproper]
  · exact FieldPath.dotted_ofDotted_inj
  · exact ⟨fun doc h => conditionKeys_of_emit htokens h,
      fun filter h => conditionKeys_of_compile htokens h⟩

/-- A path that comes up twice, once below a negation and next to a typed literal; and segments of
which the first and the last are empty. -/
theorem field_paths_keep_spelling_of_repeated_path :
    let source := "items.0.qty > 2 AND NOT (a.b = date('2024-01-01') OR items.0.qty < 9)"
    let segments := ["", "é", "", "x", ""]
    (∃ filter, ({} : Compiler).compile source = .ok filter ∧
      filter.conditionKeys = ["items.0.qty", "a.b", "items.0.qty"]) ∧
    (FieldPath.mk segments).dotted = ".é..x." ∧
      (FieldPath.ofDotted ".é..x.").segments = segments := by
  intro source segments
  obtain ⟨-, hsegments, -, hkeys⟩ := field_paths_keep_spelling
  obtain ⟨tokens, htokens, hfields⟩ := Except.exists_of_toOption_any (x := Token.ofText source)
    (p := fun tokens => tokens.filterMap Token.field? = ["items.0.qty", "a.b", "items.0.qty"])
    (by decide +kernel)
  obtain ⟨filter, hfilter, -⟩ := Except.exists_of_toOption_any (p := fun _ => true)
    (x := ({} : Compiler).compile source) (by decide +kernel)
  have hdotted : (FieldPath.mk segments).dotted = ".é..x." := by decide +kernel
  refine ⟨⟨filter, hfilter, ?_⟩, hdotted, ?_⟩
  · rw [(hkeys _ source tokens htokens).2 filter hfilter]
    exact of_decide_eq_true hfields
  · rw [← hdotted]
    exact hsegments segments (by decide) (by decide)

end Compiler

end QueryFilter
