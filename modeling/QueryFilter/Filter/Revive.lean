import QueryFilter.Filter.Basic
import QueryFilter.Filter.Error
import QueryFilter.Instant.Parse
import QueryFilter.Json.Reader

/-!
# Reviving typed literals

A reviver has a decoder for some kinds of typed literals. Reviving a value replaces every marker in
it by what its decoder makes of the raw text, and fails at the first marker that has no decoder or
whose decoder refuses it. The walk itself knows nothing of the kinds.

Filters in JSON text are revived too: an object that consists of a single entry with the key of a
kind that has a decoder, and a string, stands for a marker.

## Main definitions

* `Reviver` — the decoders; `Reviver.standard` has one for every kind
* `Reviver.revive`, `Reviver.reviveDocument` — values and documents without markers
* `Reviver.ofJson`, `Reviver.ofText` — values of JSON, and documents of JSON text
-/

namespace QueryFilter

/-- What makes a value of the raw text of a typed literal. -/
abbrev Decoder := String → Except LiteralFault Value

namespace Decoder

/-- Dates are instants. -/
def date : Decoder := fun raw =>
  match Instant.ofText? raw with
  | some i => .ok (.date i)
  | none => .error .invalidDate

/-- Object ids are 24 hexadecimal digits. -/
def objectId : Decoder := fun raw =>
  match ObjectId.ofHex? raw with
  | some id => .ok (.objectId id)
  | none => .error .invalidId

end Decoder

/-- The decoders of the kinds of typed literals that have one. -/
structure Reviver where
  decoder? : MarkerKind → Option Decoder

namespace Reviver

/-- No decoders: every marker is refused. -/
def empty : Reviver := ⟨fun _ => none⟩

/-- The same decoders but for one kind. -/
def withDecoder (r : Reviver) (kind : MarkerKind) (decoder : Decoder) : Reviver :=
  ⟨fun k => if k = kind then some decoder else r.decoder? k⟩

/-- Revives dates. -/
def datesOnly : Reviver := empty.withDecoder .date Decoder.date

/-- Revives dates and object ids. -/
def standard : Reviver := datesOnly.withDecoder .objectId Decoder.objectId

/-- Whether a kind of typed literal has a decoder. -/
def supports (r : Reviver) (kind : MarkerKind) : Bool := (r.decoder? kind).isSome

/-- The value of a marker. -/
def decode (r : Reviver) (m : Marker) : Except LiteralError Value :=
  match r.decoder? m.kind with
  | none => .error ⟨.unsupportedMarker, m.kind.key, m.span⟩
  | some decoder =>
    match decoder m.raw with
    | .ok v => .ok v
    | .error fault => .error ⟨fault, m.raw, m.span⟩

/-! ### Values -/

mutual

/-- A value with every marker in it replaced by what it stands for. -/
def revive (r : Reviver) : Value → Except LiteralError Value
  | .marker m => r.decode m
  | .array items => (reviveItems r items).map .array
  | .document entries => (reviveEntries r entries).map .document
  | v => .ok v

/-- Values with every marker in them replaced, or the first error. -/
def reviveItems (r : Reviver) : List Value → Except LiteralError (List Value)
  | [] => .ok []
  | v :: vs =>
    match revive r v with
    | .error e => .error e
    | .ok v =>
      match reviveItems r vs with
      | .error e => .error e
      | .ok vs => .ok (v :: vs)

/-- Entries with every marker in them replaced, or the first error. -/
def reviveEntries (r : Reviver) :
    List (String × Value) → Except LiteralError (List (String × Value))
  | [] => .ok []
  | (key, v) :: rest =>
    match revive r v with
    | .error e => .error e
    | .ok v =>
      match reviveEntries r rest with
      | .error e => .error e
      | .ok rest => .ok ((key, v) :: rest)

end

/-- A document with every marker in it replaced by what it stands for. -/
def reviveDocument (r : Reviver) (doc : Document) : Except LiteralError Document :=
  reviveEntries r doc

/-! ### JSON -/

/-- The value of a JSON integer: a double if it does not fit 64 bits with a sign. -/
def integerValue (n : Int) : Value :=
  if Number.fitsInt64 n then .int (Int64.ofInt n) else .double (Double.ofNat n.toNat)

/-- The marker that an object stands for, if it does and the kind has a decoder. -/
def marker? (r : Reviver) : List (String × Json) → Option Marker
  | [(key, .string raw)] =>
    match MarkerKind.ofKey? key with
    | some kind => if r.supports kind then some ⟨kind, raw, none⟩ else none
    | none => none
  | _ => none

mutual

/-- The value of JSON, with every object that stands for a marker replaced by what that stands
for. -/
def ofJson (r : Reviver) : Json → Except LiteralError Value
  | .null => .ok .null
  | .boolean b => .ok (.boolean b)
  | .integer n => .ok (integerValue n)
  | .real x => .ok (.double x)
  | .string text => .ok (.string text)
  | .array items => (itemsOfJson r items).map .array
  | .object entries =>
    match r.marker? entries with
    | some m => r.decode m
    | none => (entriesOfJson r entries).map .document

/-- The values of JSON items, or the first error. -/
def itemsOfJson (r : Reviver) : List Json → Except LiteralError (List Value)
  | [] => .ok []
  | v :: vs =>
    match ofJson r v with
    | .error e => .error e
    | .ok v =>
      match itemsOfJson r vs with
      | .error e => .error e
      | .ok vs => .ok (v :: vs)

/-- The entries of a JSON object, or the first error. -/
def entriesOfJson (r : Reviver) :
    List (String × Json) → Except LiteralError (List (String × Value))
  | [] => .ok []
  | (key, v) :: rest =>
    match ofJson r v with
    | .error e => .error e
    | .ok v =>
      match entriesOfJson r rest with
      | .error e => .error e
      | .ok rest => .ok ((key, v) :: rest)

end

/-- The document of a JSON text. -/
def ofText (r : Reviver) (text : String) : Except LiteralError Document :=
  match Json.read text.toList with
  | .error fault => .error ⟨.invalidJson, fault.message text.toList, none⟩
  | .ok json =>
    match r.ofJson json with
    | .error e => .error e
    | .ok (.document doc) => .ok doc
    | .ok _ => .error ⟨.invalidJson, "top-level value is not an object", none⟩

end Reviver

end QueryFilter
