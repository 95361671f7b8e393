import QueryFilter.Filter.Bson
import QueryFilter.Proofs.Filter.Replacement

/-!
# The driver's form of a filter keeps all of it

A database driver takes a filter in a form of its own. Each kind of value has a kind there, and no
two share one, but for one pair: a marker becomes the document of its key and its raw text, and such
a document is also a value by itself. So a filter without markers can be read back from its form,
with every key in its place, and a filter with markers has the form of the filter in which they are
written out.

## Main definitions

* `Bson.toValue?` — the value without markers that has a given form
* `Marker.toDocument` — the document that a marker becomes
* `Value.writeOut`, `Document.writeOut` — markers replaced by their documents

## Main results

* `Value.toValue?_toBson` — values without markers are read back from their form
* `Value.toBson_writeOut` — markers have the form of what they are written out to
* `Document.toBson_loses_nothing` — both for documents
-/

namespace QueryFilter

/-! ### Reading back -/

namespace Bson

mutual

/-- The value without markers that has the given form, if there is one: a date may lie outside of
the years that can be named. -/
def toValue? : Bson → Option Value
  | null => some .null
  | boolean b => some (.boolean b)
  | int64 n => some (.int n)
  | double x => some (.double x)
  | string text => some (.string text)
  | dateTime millis => (Instant.ofMillis? millis).map .date
  | objectId id => some (.objectId id)
  | array items => (itemsToValues? items).map .array
  | document entries => (entriesToValues? entries).map .document

/-- The values that have the given forms. -/
def itemsToValues? : List Bson → Option (List Value)
  | [] => some []
  | b :: bs => b.toValue?.bind fun v => (itemsToValues? bs).map (v :: ·)

/-- The entries that have the given form, in the same order. -/
def entriesToValues? : List (String × Bson) → Option (List (String × Value))
  | [] => some []
  | (key, b) :: rest => b.toValue?.bind fun v => (entriesToValues? rest).map ((key, v) :: ·)

end

end Bson

theorem Instant.ofMillis?_millis (i : Instant) : Instant.ofMillis? i.millis = some i := by
  rw [Instant.ofMillis?, dif_pos ⟨i.notBefore, i.notAfter⟩]

namespace Value

/-- Items are read back if each of them is. -/
theorem itemsToValues?_itemsToBson {items : List Value}
    (h : ∀ v ∈ items, v.toBson.toValue? = some v) :
    Bson.itemsToValues? (itemsToBson items) = some items := by
  induction items with
  | nil => rfl
  | cons v vs ih =>
    obtain ⟨hv, hvs⟩ := List.forall_mem_cons.mp h
    rw [itemsToBson, Bson.itemsToValues?, hv, ih hvs]
    rfl

/-- Entries are read back if their values are, and keep their keys. -/
theorem entriesToValues?_entriesToBson {entries : List (String × Value)}
    (h : ∀ e ∈ entries, e.2.toBson.toValue? = some e.2) :
    Bson.entriesToValues? (entriesToBson entries) = some entries := by
  induction entries with
  | nil => rfl
  | cons e es ih =>
    obtain ⟨he, hes⟩ := List.forall_mem_cons.mp h
    rw [entriesToBson, Bson.entriesToValues?, he, ih hes]
    rfl

/-- **Values without markers are read back** from the form that a driver takes. -/
theorem toValue?_toBson {v : Value} (h : v.hasMarkers = false) : v.toBson.toValue? = some v := by
  induction v with
  | date i => rw [toBson, Bson.toValue?, Instant.ofMillis?_millis, Option.map_some]
  | array items ih =>
    have hitems := hasMarkers_array_eq_false_iff.mp h
    rw [toBson, Bson.toValue?, itemsToValues?_itemsToBson fun v hv => ih v hv (hitems v hv),
      Option.map_some]
  | document entries ih =>
    have hentries := hasMarkers_document_eq_false_iff.mp h
    rw [toBson, Bson.toValue?, entriesToValues?_entriesToBson fun e he => ih e he (hentries e he),
      Option.map_some]
  | marker m => cases h
  | _ => rfl

/-- Values without markers that have the same form are the same. -/
theorem eq_of_toBson_eq {v w : Value} (hv : v.hasMarkers = false) (hw : w.hasMarkers = false)
    (h : v.toBson = w.toBson) : v = w :=
  Option.some.inj ((toValue?_toBson hv).symm.trans (h ▸ toValue?_toBson hw))

end Value

/-! ### Markers that are written out -/

/-- The document that a marker becomes: its key, with its raw text. -/
def Marker.toDocument (m : Marker) : Document := [(m.kind.key, .string m.raw)]

namespace Value

/-- A value in which every marker is written out as a document. -/
def writeOut (v : Value) : Value := v.replaceMarkers fun m => .document m.toDocument

theorem itemsToBson_eq_map (items : List Value) : itemsToBson items = items.map toBson := by
  induction items with
  | nil => rfl
  | cons v vs ih => rw [itemsToBson, ih, List.map_cons]

theorem entriesToBson_eq_map (entries : List (String × Value)) :
    entriesToBson entries = entries.map fun e => (e.1, e.2.toBson) := by
  induction entries with
  | nil => rfl
  | cons e es ih => rw [entriesToBson, ih, List.map_cons]

/-- **A marker has the form of the document that it becomes**, at any depth. -/
theorem toBson_writeOut (v : Value) : v.writeOut.toBson = v.toBson := by
  induction v with
  | array items ih =>
    rw [writeOut, replaceMarkers_array, toBson, toBson, itemsToBson_eq_map, itemsToBson_eq_map,
      List.map_map]
    exact congrArg Bson.array (List.map_congr_left ih)
  | document entries ih =>
    rw [writeOut, replaceMarkers_document, toBson, toBson, entriesToBson_eq_map,
      entriesToBson_eq_map, List.map_map]
    exact congrArg Bson.document (List.map_congr_left fun e he => by
      exact congrArg (Prod.mk e.1) (ih e he))
  | _ => rfl

/-- Nothing is a marker after that. -/
theorem hasMarkers_writeOut (v : Value) : v.writeOut.hasMarkers = false := by
  induction v with
  | array items ih =>
    rw [writeOut, replaceMarkers_array, hasMarkers_array_eq_false_iff]
    exact List.forall_mem_map.mpr ih
  | document entries ih =>
    rw [writeOut, replaceMarkers_document, hasMarkers_document_eq_false_iff]
    exact List.forall_mem_map.mpr ih
  | _ => rfl

end Value

/-! ### Documents -/

namespace Document

/-- A document in which every marker is written out as a document, with all keys in their places. -/
def writeOut (doc : Document) : Document := doc.replaceMarkers fun m => .document m.toDocument

/-- **Nothing is lost in the form that a driver takes.** Documents without markers that have the
same form are the same, with their keys in the same order at every level. A document with markers
has the form of the document in which they are written out, which has no markers. -/
theorem toBson_loses_nothing :
    (∀ d₁ d₂ : Document, d₁.hasMarkers = false → d₂.hasMarkers = false →
      d₁.toBson = d₂.toBson → d₁ = d₂) ∧
    ∀ d : Document, d.writeOut.hasMarkers = false ∧ d.toBson = d.writeOut.toBson := by
  refine ⟨fun d₁ d₂ h₁ h₂ h => ?_, fun d => ⟨?_, ?_⟩⟩
  · have hdocument : (Value.document d₁).toBson = (Value.document d₂).toBson := by
      rw [Value.toBson, Value.toBson]
      exact congrArg Bson.document h
    exact Value.document.inj (Value.eq_of_toBson_eq h₁ h₂ hdocument)
  · exact Value.hasMarkers_writeOut (.document d)
  · exact (Bson.document.inj (Value.toBson_writeOut (.document d))).symm

/-- A date that is not decoded has the form of a document with its text, next to a number that is a
double and not an integer. -/
theorem toBson_of_marker_in_array :
    let soon : Marker := ⟨.date, "soon", some ⟨4, 14⟩⟩
    let one : Value := .double ⟨0x3FF0000000000000⟩
    let doc : Document := [("b", .array [.marker soon, one]), ("a", .int 1)]
    let written : Document :=
      [("b", .array [.document [("$date", .string "soon")], one]), ("a", .int 1)]
    doc.hasMarkers ∧ doc.writeOut.hasMarkers = false ∧ written.hasMarkers = false ∧
      doc.toBson = doc.writeOut.toBson ∧ doc.toBson = written.toBson ∧ doc.writeOut = written := by
  intro soon one doc written
  obtain ⟨hinjective, hwritten⟩ := toBson_loses_nothing
  obtain ⟨hmarkers, hform⟩ := hwritten doc
  have hsame : doc.writeOut.toBson = written.toBson := rfl
  exact ⟨rfl, hmarkers, rfl, hform, hform.trans hsame, hinjective _ _ hmarkers rfl hsame⟩

end Document

end QueryFilter
