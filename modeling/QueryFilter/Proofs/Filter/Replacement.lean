import QueryFilter.Proofs.Filter.LiteralErrors

/-!
# Reviving replaces markers and nothing else

A decoder can make any value of a raw text. Whatever the decoders do, reviving puts what they make
of each marker in the place of the marker and leaves the rest as it stands: keys and their order,
the items of arrays, and all values that are no markers. It needs a decoder that accepts the raw text
for every marker there is, and fails at the first one that has none.

That no marker is left, and that reviving a second time changes nothing, does depend on the decoders:
one that makes a marker of a marker would have another one to revive each time.

## Main definitions

* `Value.replaceMarkers` — a value with something else in the place of each marker
* `Reviver.Decodes` — what a marker is decoded to
* `Reviver.Replaces` — what it means to revive the markers in something

## Main results

* `Reviver.revive_of_decode` — a value is revived if its markers are decoded
* `Reviver.replaces_revive`, `Reviver.replaces_reviveDocument` — values and documents are revived
* `Reviver.reviving_replaces_markers` — both
-/

namespace QueryFilter

/-! ### Other values in the place of markers -/

namespace Value

mutual

/-- A value in which each marker is replaced by what a function gives for it. -/
def replaceMarkers (f : Marker → Value) : Value → Value
  | marker m => f m
  | array items => array (replaceInItems f items)
  | document entries => document (replaceInEntries f entries)
  | v => v

/-- Values in which each marker is replaced. -/
def replaceInItems (f : Marker → Value) : List Value → List Value
  | [] => []
  | v :: vs => v.replaceMarkers f :: replaceInItems f vs

/-- Entries in which each marker is replaced. -/
def replaceInEntries (f : Marker → Value) : List (String × Value) → List (String × Value)
  | [] => []
  | (key, v) :: rest => (key, v.replaceMarkers f) :: replaceInEntries f rest

end

theorem replaceMarkers_array (f : Marker → Value) (items : List Value) :
    (array items).replaceMarkers f = array (items.map (replaceMarkers f)) := by
  rw [replaceMarkers]
  congr 1
  induction items with
  | nil => rfl
  | cons v vs ih => rw [replaceInItems, ih, List.map_cons]

theorem replaceMarkers_document (f : Marker → Value) (entries : List (String × Value)) :
    (document entries).replaceMarkers f =
      document (entries.map fun e => (e.1, e.2.replaceMarkers f)) := by
  rw [replaceMarkers]
  congr 1
  induction entries with
  | nil => rfl
  | cons e es ih => rw [replaceInEntries, ih, List.map_cons]

end Value

namespace Document

/-- The markers in a document at any depth, from left to right. -/
def markers (doc : Document) : List Marker := (Value.document doc).markers

/-- A document in which each marker is replaced by what a function gives for it. -/
def replaceMarkers (f : Marker → Value) (doc : Document) : Document :=
  Value.replaceInEntries f doc

end Document

namespace Reviver

/-! ### Decoded markers -/

/-- A marker has a decoder, and the decoder makes a value of its raw text. -/
def Decodes (r : Reviver) (m : Marker) (v : Value) : Prop :=
  ∃ decoder, r.decoder? m.kind = some decoder ∧ decoder m.raw = .ok v

/-- No decoder ever makes a value that has a marker in it. -/
def LeavesNoMarkers (r : Reviver) : Prop :=
  ∀ kind decoder, r.decoder? kind = some decoder →
    ∀ raw v, decoder raw = .ok v → v.hasMarkers = false

variable {r : Reviver}

theorem decodes_iff {m : Marker} {v : Value} : r.Decodes m v ↔ r.decode m = .ok v := by
  rw [Decodes, decode]
  cases r.decoder? m.kind with
  | none => simp
  | some decoder => cases hraw : decoder m.raw <;> simp [hraw]

/-- A marker is either decoded or refused. -/
theorem exists_decodes_iff {m : Marker} : (∃ v, r.Decodes m v) ↔ ∀ e, ¬ r.Refuses m e := by
  simp only [decodes_iff, refuses_iff, ← Except.fault?_eq_none_iff,
    Option.eq_none_iff_forall_ne_some, ne_eq]

theorem LeavesNoMarkers.hasMarkers_of_decode (hr : r.LeavesNoMarkers) {m : Marker} {v : Value}
    (h : r.decode m = .ok v) : v.hasMarkers = false := by
  obtain ⟨decoder, hdecoder, hraw⟩ := decodes_iff.mpr h
  exact hr m.kind decoder hdecoder m.raw v hraw

theorem leavesNoMarkers_standard : standard.LeavesNoMarkers := by
  intro kind decoder hdecoder raw v hraw
  exact hasMarkers_of_decode_standard (m := ⟨kind, raw, none⟩)
    (decodes_iff.mp ⟨decoder, hdecoder, hraw⟩)

/-! ### Values -/

/-- If all markers of a value are decoded, it is revived to the value with these in their places. -/
theorem revive_of_decode {f : Marker → Value} {v : Value}
    (h : ∀ m ∈ v.markers, r.decode m = .ok (f m)) : r.revive v = .ok (v.replaceMarkers f) := by
  induction v with
  | array items ih =>
    rw [Value.markers_array] at h
    rw [Value.replaceMarkers_array]
    refine revive_array_iff.mpr ⟨_, List.forall₂_map_right_iff.mpr (List.forall₂_same.mpr ?_), rfl⟩
    intro v hv
    exact ih v hv fun m hm => h m (List.mem_flatMap.mpr ⟨v, hv, hm⟩)
  | document entries ih =>
    rw [Value.markers_document] at h
    rw [Value.replaceMarkers_document]
    refine revive_document_iff.mpr
      ⟨_, List.forall₂_map_right_iff.mpr (List.forall₂_same.mpr ?_), rfl⟩
    intro e he
    exact ⟨rfl, ih e he fun m hm => h m (List.mem_flatMap.mpr ⟨e, he, hm⟩)⟩
  | marker m => exact h m (List.mem_singleton_self m)
  | _ => rfl

/-- What a marker is decoded to; one that is refused stands for itself. -/
def decoded (r : Reviver) (m : Marker) : Value := (r.decode m).toOption.getD (.marker m)

theorem decode_eq_decoded {m : Marker} {v : Value} (h : r.Decodes m v) :
    r.decode m = .ok (r.decoded m) := by
  rw [decoded, decodes_iff.mp h]
  rfl

/-- A value is revived if and only if all of its markers are decoded. -/
theorem exists_revive_iff {v : Value} :
    (∃ w, r.revive v = .ok w) ↔ ∀ m ∈ v.markers, ∃ u, r.Decodes m u := by
  rw [← Except.fault?_eq_none_iff, fault?_revive, List.findSome?_eq_none_iff]
  simp only [Except.fault?_eq_none_iff, decodes_iff]

theorem revive_eq_ok_iff {v w : Value} : r.revive v = .ok w ↔
    ∃ f, (∀ m ∈ v.markers, r.Decodes m (f m)) ∧ v.replaceMarkers f = w := by
  constructor
  · intro h
    have hdecoded : ∀ m ∈ v.markers, r.decode m = .ok (r.decoded m) := by
      intro m hm
      obtain ⟨u, hu⟩ := exists_revive_iff.mp ⟨w, h⟩ m hm
      exact decode_eq_decoded hu
    have hw := h.symm.trans (revive_of_decode hdecoded)
    exact ⟨r.decoded, fun m hm => decodes_iff.mpr (hdecoded m hm), (Except.ok.inj hw).symm⟩
  · rintro ⟨f, hf, rfl⟩
    exact revive_of_decode fun m hm => decodes_iff.mp (hf m hm)

theorem revive_eq_error_iff {v : Value} {e : LiteralError} : r.revive v = .error e ↔
    ∃ before m after, v.markers = before ++ m :: after ∧
      (∀ u ∈ before, ∃ w, r.Decodes u w) ∧ r.Refuses m e := by
  have hrefuses : ∀ m e, r.Refuses m e ↔ Except.fault? (r.decode m) = some e :=
    fun _ _ => refuses_iff
  rw [← Except.fault?_eq_some_iff, fault?_revive, Except.findSome?_eq_some_iff_first hrefuses]
  simp only [exists_decodes_iff]

/-! ### Values and documents -/

/-- What it means that a walk through things of some type revives them, given how the markers in such
a thing are listed, replaced and noticed. -/
structure Replaces (r : Reviver) {α : Type} (walk : α → Except LiteralError α)
    (markers : α → List Marker) (replace : (Marker → Value) → α → α) (hasMarkers : α → Bool) :
    Prop where
  /-- It succeeds if and only if every marker has a decoder that accepts its raw text. -/
  succeeds_iff : ∀ x, (∃ y, walk x = .ok y) ↔ ∀ m ∈ markers x, ∃ v, r.Decodes m v
  /-- The result is the thing with what each marker is decoded to in the place of the marker. -/
  eq_ok_iff : ∀ x y, walk x = .ok y ↔
    ∃ f, (∀ m ∈ markers x, r.Decodes m (f m)) ∧ replace f x = y
  /-- The error is that of the first marker that is not decoded. -/
  eq_error_iff : ∀ x e, walk x = .error e ↔
    ∃ before m after, markers x = before ++ m :: after ∧
      (∀ u ∈ before, ∃ v, r.Decodes u v) ∧ r.Refuses m e
  /-- If no decoder makes markers, none is left, and the result is revived to itself. -/
  settled : r.LeavesNoMarkers → ∀ x y, walk x = .ok y →
    hasMarkers y = false ∧ walk y = .ok y

/-- Values are revived. -/
theorem replaces_revive (r : Reviver) :
    r.Replaces r.revive Value.markers Value.replaceMarkers Value.hasMarkers where
  succeeds_iff _ := exists_revive_iff
  eq_ok_iff _ _ := revive_eq_ok_iff
  eq_error_iff _ _ := revive_eq_error_iff
  settled := by
    intro hr v w h
    have hmarkers := hasMarkers_of_revive (fun _ _ => hr.hasMarkers_of_decode) h
    exact ⟨hmarkers, revive_of_hasMarkers_eq_false hmarkers⟩

/-- Documents are revived, as a document is revived like any other value. -/
theorem replaces_reviveDocument (r : Reviver) : r.Replaces r.reviveDocument Document.markers
    Document.replaceMarkers Document.hasMarkers where
  succeeds_iff doc := by
    rw [Document.markers, ← exists_revive_iff]
    simp only [revive, Except.map_eq_ok_iff]
    simp [reviveDocument]
  eq_ok_iff doc revived := by
    rw [reviveDocument_eq_ok_iff, revive_eq_ok_iff]
    simp only [Value.replaceMarkers, Value.document.injEq]
    rfl
  eq_error_iff doc e := by
    rw [Document.markers, ← revive_eq_error_iff, revive, Except.map_eq_error_iff, reviveDocument]
  settled := by
    intro hr doc revived h
    rw [reviveDocument_eq_ok_iff] at h ⊢
    exact (replaces_revive r).settled hr _ _ h

/-- **Reviving replaces markers and nothing else.** With any decoders, values and documents are
revived if and only if each of their markers has a decoder that accepts it, and then to the same
value with the markers replaced; otherwise the error is that of the first marker from left to right
that has none, with the place of the marker. If no decoder makes markers, none is left, and reviving
again changes nothing. -/
theorem reviving_replaces_markers (r : Reviver) :
    r.Replaces r.revive Value.markers Value.replaceMarkers Value.hasMarkers ∧
      r.Replaces r.reviveDocument Document.markers Document.replaceMarkers Document.hasMarkers :=
  ⟨replaces_revive r, replaces_reviveDocument r⟩

/-- A date in an array and an id below an operator are replaced, and the result is then left as it
is. With a second date that is none, the error is about that one and not about the id after it. -/
theorem reviving_replaces_nested_markers :
    let date : Marker := ⟨.date, "1970-01-01", some ⟨4, 14⟩⟩
    let id : Marker := ⟨.objectId, "507f1f77bcf86cd799439011", some ⟨20, 44⟩⟩
    let soon : Marker := ⟨.date, "soon", some ⟨50, 54⟩⟩
    let unknown : Marker := ⟨.objectId, "zz", some ⟨60, 62⟩⟩
    let doc : Document := [("a", .array [.marker date, .int 1]),
      ("b", .document [("$gt", .marker id)])]
    let bad : Document := [("c", .array [.marker date, .marker soon]), ("d", .marker unknown)]
    standard.LeavesNoMarkers ∧ doc.markers = [date, id] ∧
      (∃ revived, standard.reviveDocument doc = .ok revived ∧
        Document.hasMarkers revived = false ∧
        standard.reviveDocument revived = .ok revived) ∧
      bad.markers = [date] ++ soon :: [unknown] ∧
      standard.reviveDocument bad = .error ⟨.invalidDate, "soon", some ⟨50, 54⟩⟩ := by
  intro date id soon unknown doc bad
  obtain ⟨-, hdocument⟩ := reviving_replaces_markers standard
  have hdate : ∃ v, standard.Decodes date v := by
    have hsome : (Instant.ofText? "1970-01-01").isSome := by decide +kernel
    obtain ⟨i, hi⟩ := Option.isSome_iff_exists.mp hsome
    exact ⟨.date i, Decoder.date, rfl, by rw [Decoder.date, hi]⟩
  have hid : ∃ v, standard.Decodes id v := by
    have hsome : (ObjectId.ofHex? "507f1f77bcf86cd799439011").isSome := by decide +kernel
    obtain ⟨i, hi⟩ := Option.isSome_iff_exists.mp hsome
    exact ⟨.objectId i, Decoder.objectId, rfl, by rw [Decoder.objectId, hi]⟩
  have hsoon : standard.Refuses soon ⟨.invalidDate, "soon", some ⟨50, 54⟩⟩ := by
    have hdecoder : standard.decoder? soon.kind = some Decoder.date := rfl
    have hnone : Instant.ofText? "soon" = none := by decide +kernel
    exact .refused hdecoder (by rw [Decoder.date, hnone])
  have hall : ∀ m ∈ doc.markers, ∃ v, standard.Decodes m v := by
    intro m hm
    rcases List.mem_pair.mp hm with rfl | rfl
    · exact hdate
    · exact hid
  obtain ⟨revived, hrevived⟩ := (hdocument.succeeds_iff doc).mpr hall
  obtain ⟨hmarkers, hagain⟩ := hdocument.settled leavesNoMarkers_standard doc revived hrevived
  refine ⟨leavesNoMarkers_standard, rfl, ⟨revived, hrevived, hmarkers, hagain⟩, rfl, ?_⟩
  refine (hdocument.eq_error_iff bad _).mpr ⟨[date], soon, [unknown], rfl, ?_, hsoon⟩
  intro u hu
  rw [List.mem_singleton.mp hu]
  exact hdate

end Reviver

end QueryFilter
