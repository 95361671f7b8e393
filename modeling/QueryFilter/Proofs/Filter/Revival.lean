import QueryFilter.Filter.Revive
import QueryFilter.Proofs.Outcome

/-!
# What a value is revived to

Reviving goes through a value from the outside to the inside and changes nothing but markers. So a
revived array has as many items as before, and a revived document the same keys in the same order;
item by item and entry by entry, what stands there is what was revived.

## Main results

* `Value.induction` — induction on values
* `Reviver.revive_array_iff`, `Reviver.revive_document_iff` — arrays and documents are revived item
  by item and entry by entry
* `Reviver.reviveDocument_eq_ok_iff` — whole documents are revived like any other value
* `Reviver.revive_of_hasMarkers_eq_false` — without markers nothing changes
* `Reviver.hasMarkers_of_revive` — no marker is left
-/

namespace QueryFilter

namespace Value

/-- Induction on values: an array has the hypothesis for all of its items, and a document for the
values of all of its entries. -/
@[elab_as_elim, induction_eliminator]
theorem induction {motive : Value → Prop} (null : motive .null)
    (boolean : ∀ b, motive (.boolean b)) (int : ∀ n, motive (.int n))
    (double : ∀ x, motive (.double x)) (string : ∀ text, motive (.string text))
    (date : ∀ instant, motive (.date instant)) (objectId : ∀ id, motive (.objectId id))
    (array : ∀ items, (∀ v ∈ items, motive v) → motive (.array items))
    (document : ∀ entries, (∀ e ∈ entries, motive e.2) → motive (.document entries))
    (marker : ∀ m, motive (.marker m)) (v : Value) : motive v :=
  @Value.rec motive (fun vs => ∀ v ∈ vs, motive v) (fun es => ∀ e ∈ es, motive e.2)
    (fun e => motive e.2) null boolean int double string date objectId array document marker
    (fun _ h => absurd h List.not_mem_nil) (fun _ _ hv hvs => List.forall_mem_cons.mpr ⟨hv, hvs⟩)
    (fun _ h => absurd h List.not_mem_nil) (fun _ _ he hes => List.forall_mem_cons.mpr ⟨he, hes⟩)
    (fun _ _ h => h) v

theorem hasMarkers_array_eq_false_iff {items : List Value} :
    (array items).hasMarkers = false ↔ ∀ v ∈ items, v.hasMarkers = false := by
  rw [hasMarkers]
  induction items with
  | nil => simp [anyMarkers]
  | cons v vs ih => rw [anyMarkers, Bool.or_eq_false_iff, ih, List.forall_mem_cons]

theorem hasMarkers_document_eq_false_iff {entries : List (String × Value)} :
    (document entries).hasMarkers = false ↔ ∀ e ∈ entries, e.2.hasMarkers = false := by
  rw [hasMarkers]
  induction entries with
  | nil => simp [entriesHaveMarkers]
  | cons e es ih => rw [entriesHaveMarkers, Bool.or_eq_false_iff, ih, List.forall_mem_cons]

end Value

namespace Reviver

variable {r : Reviver}

/-! ### Item by item -/

theorem reviveItems_eq_mapM (items : List Value) :
    r.reviveItems items = items.mapM r.revive := by
  induction items with
  | nil => rfl
  | cons v vs ih =>
    rw [reviveItems, List.mapM_cons, ih]
    cases r.revive v with
    | error e => rfl
    | ok w =>
      cases vs.mapM r.revive with
      | error e => rfl
      | ok ws => rfl

theorem reviveEntries_eq_mapM (entries : List (String × Value)) :
    r.reviveEntries entries = entries.mapM fun e => (r.revive e.2).map (e.1, ·) := by
  induction entries with
  | nil => rfl
  | cons e es ih =>
    obtain ⟨key, v⟩ := e
    rw [reviveEntries, List.mapM_cons, ih]
    cases r.revive v with
    | error e => rfl
    | ok w =>
      cases es.mapM fun e => (r.revive e.2).map (e.1, ·) with
      | error e => rfl
      | ok ws => rfl

/-- The entry of a document and what it is revived to. -/
def EntryRevives (r : Reviver) (e f : String × Value) : Prop :=
  e.1 = f.1 ∧ r.revive e.2 = .ok f.2

theorem reviveEntries_eq_ok_iff {entries revived : List (String × Value)} :
    r.reviveEntries entries = .ok revived ↔ List.Forall₂ (EntryRevives r) entries revived := by
  have hentry : ∀ e f : String × Value,
      (r.revive e.2).map (e.1, ·) = .ok f ↔ EntryRevives r e f := by
    intro e f
    rw [Except.map_eq_ok_iff]
    constructor
    · rintro ⟨v, hv, rfl⟩
      exact ⟨rfl, hv⟩
    · rintro ⟨hkey, hv⟩
      exact ⟨f.2, hv, by rw [hkey]⟩
  rw [reviveEntries_eq_mapM, Except.mapM_eq_ok_iff]
  simp only [hentry]

theorem revive_array_iff {items : List Value} {w : Value} :
    r.revive (.array items) = .ok w ↔
      ∃ revived, List.Forall₂ (fun v u => r.revive v = .ok u) items revived ∧
        .array revived = w := by
  rw [revive, Except.map_eq_ok_iff]
  simp only [reviveItems_eq_mapM, Except.mapM_eq_ok_iff]

theorem revive_document_iff {entries : List (String × Value)} {w : Value} :
    r.revive (.document entries) = .ok w ↔
      ∃ revived, List.Forall₂ (EntryRevives r) entries revived ∧ .document revived = w := by
  rw [revive, Except.map_eq_ok_iff]
  simp only [reviveEntries_eq_ok_iff]

/-- A document is revived like any other value. -/
theorem reviveDocument_eq_ok_iff {doc revived : Document} :
    r.reviveDocument doc = .ok revived ↔ r.revive (.document doc) = .ok (.document revived) := by
  rw [reviveDocument, reviveEntries_eq_ok_iff, revive_document_iff]
  simp

theorem keys_of_forall₂ {entries revived : List (String × Value)}
    (h : List.Forall₂ (EntryRevives r) entries revived) :
    Entries.keys revived = Entries.keys entries := by
  induction h with
  | nil => rfl
  | cons he _ ih => exact List.cons_eq_cons.mpr ⟨he.1.symm, ih⟩

/-! ### Markers -/

/-- A value without markers is revived to itself. -/
theorem revive_of_hasMarkers_eq_false {v : Value} (h : v.hasMarkers = false) :
    r.revive v = .ok v := by
  induction v with
  | array items ih =>
    rw [Value.hasMarkers_array_eq_false_iff] at h
    exact revive_array_iff.mpr
      ⟨items, List.forall₂_same.mpr fun v hv => ih v hv (h v hv), rfl⟩
  | document entries ih =>
    rw [Value.hasMarkers_document_eq_false_iff] at h
    exact revive_document_iff.mpr
      ⟨entries, List.forall₂_same.mpr fun e he => ⟨rfl, ih e he (h e he)⟩, rfl⟩
  | marker m => cases h
  | _ => rfl

/-- What the standard decoders make of a marker. -/
theorem decode_standard_cases {m : Marker} {v : Value} (h : standard.decode m = .ok v) :
    (∃ i, m.kind = .date ∧ Instant.ofText? m.raw = some i ∧ v = .date i) ∨
      ∃ id, m.kind = .objectId ∧ ObjectId.ofHex? m.raw = some id ∧ v = .objectId id := by
  obtain ⟨kind, raw, span⟩ := m
  cases kind with
  | date =>
    left
    cases hraw : Instant.ofText? raw with
    | none => simp [decode, standard, datesOnly, withDecoder, Decoder.date, hraw] at h
    | some i =>
      refine ⟨i, rfl, rfl, ?_⟩
      simpa [decode, standard, datesOnly, withDecoder, Decoder.date, hraw, eq_comm] using h
  | objectId =>
    right
    cases hraw : ObjectId.ofHex? raw with
    | none => simp [decode, standard, withDecoder, Decoder.objectId, hraw] at h
    | some id =>
      refine ⟨id, rfl, rfl, ?_⟩
      simpa [decode, standard, withDecoder, Decoder.objectId, hraw, eq_comm] using h

theorem hasMarkers_of_decode_standard {m : Marker} {v : Value} (h : standard.decode m = .ok v) :
    v.hasMarkers = false := by
  rcases decode_standard_cases h with ⟨i, -, -, rfl⟩ | ⟨id, -, -, rfl⟩
  · rfl
  · rfl

/-- **No marker is left**, if none is left in what markers are decoded to. -/
theorem hasMarkers_of_revive {v w : Value}
    (hdecode : ∀ m u, r.decode m = .ok u → u.hasMarkers = false) (h : r.revive v = .ok w) :
    w.hasMarkers = false := by
  induction v generalizing w with
  | array items ih =>
    obtain ⟨revived, hall, rfl⟩ := revive_array_iff.mp h
    rw [Value.hasMarkers_array_eq_false_iff]
    intro u hu
    obtain ⟨v, hv, hvu⟩ := exists_mem_of_forall₂ hall hu
    exact ih v hv hvu
  | document entries ih =>
    obtain ⟨revived, hall, rfl⟩ := revive_document_iff.mp h
    rw [Value.hasMarkers_document_eq_false_iff]
    intro u hu
    obtain ⟨v, hv, hvu⟩ := exists_mem_of_forall₂ hall hu
    exact ih v hv hvu.2
  | marker m => exact hdecode m w h
  | _ =>
    cases h
    rfl

end Reviver

end QueryFilter
