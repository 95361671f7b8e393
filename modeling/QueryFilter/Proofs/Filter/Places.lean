import QueryFilter.Proofs.Filter.Emission
import QueryFilter.Proofs.Filter.ExtendedJson
import QueryFilter.Proofs.Query.Source

/-!
# Filters do not depend on places

A query has places in its comparisons and typed literals, and the document that is emitted for it
has them in its markers. They are there for error messages: neither emission nor reviving decides
anything by a place, and reviving drops them with the markers. Together with what is known of the
parser, a filter is determined by the tokens of its text without their spans. So it is the same for
every layout of the text and every spelling of its operators, keywords and strings; if there is an
error instead, it is the same one at another place.

Each stage commutes with erasing the places. Two texts with the same tokens lead to the same thing
up to places after every stage, and a filter has none left.

## Main definitions

* `Value.eraseSpans`, `Document.eraseSpans` — documents with the places of their markers erased
* `CompileError.eraseSpan` — the error of any stage with its place erased

## Main results

* `Query.emit_eraseSpans` — emission
* `Reviver.reviveDocument_eraseSpans` — reviving
* `Compiler.compile_eq_of_kinds_eq` — texts with the same tokens have the same filter or the same
  error
-/

namespace QueryFilter

/-! ### Values and errors without places -/

/-- The marker moved to the start of the text. -/
def Marker.eraseSpan (m : Marker) : Marker := { m with span := m.span.map fun _ => .point 0 }

namespace Value

mutual

/-- A value with the places of its markers erased. -/
def eraseSpans : Value → Value
  | marker m => marker m.eraseSpan
  | array items => array (itemsEraseSpans items)
  | document entries => document (entriesEraseSpans entries)
  | v => v

/-- Values with the places of their markers erased. -/
def itemsEraseSpans : List Value → List Value
  | [] => []
  | v :: vs => v.eraseSpans :: itemsEraseSpans vs

/-- Entries with the places of their markers erased. -/
def entriesEraseSpans : List (String × Value) → List (String × Value)
  | [] => []
  | (key, v) :: rest => (key, v.eraseSpans) :: entriesEraseSpans rest

end

theorem eraseSpans_array (items : List Value) :
    (array items).eraseSpans = array (items.map eraseSpans) := by
  rw [eraseSpans]
  congr 1
  induction items with
  | nil => rfl
  | cons v vs ih => rw [itemsEraseSpans, ih, List.map_cons]

theorem eraseSpans_document (entries : List (String × Value)) :
    (document entries).eraseSpans = document (entries.map fun e => (e.1, e.2.eraseSpans)) := by
  rw [eraseSpans]
  congr 1
  induction entries with
  | nil => rfl
  | cons e es ih => rw [entriesEraseSpans, ih, List.map_cons]

end Value

/-- A document with the places of its markers erased. -/
def Document.eraseSpans (doc : Document) : Document := doc.map fun e => (e.1, e.2.eraseSpans)

/-- An operand of the wrong type, moved to the start of the text. -/
def OperandMismatch.eraseSpan (e : OperandMismatch) : OperandMismatch := { e with span := .point 0 }

/-- A lexical error moved to the start of the text. -/
def LexError.eraseSpan : LexError → LexError
  | unexpectedChar _ ch => unexpectedChar 0 ch
  | unterminatedString _ => unterminatedString 0
  | invalidEscape _ ch => invalidEscape 0 ch
  | invalidNumber _ text => invalidNumber 0 text
  | malformedMarker _ name => malformedMarker 0 name

/-- The error of any stage with its place erased; the stage and all else stay. -/
def CompileError.eraseSpan : CompileError → CompileError
  | lexical e => lexical e.eraseSpan
  | syntactic e => syntactic e.eraseSpan
  | operand e => operand e.eraseSpan
  | literal e => literal e.eraseSpan

/-! ### Emission -/

theorem Literal.toValue_eraseSpans (v : Literal) : v.eraseSpans.toValue = v.toValue.eraseSpans := by
  induction v with
  | number n => cases n <;> rfl
  | array items ih =>
    rw [eraseSpans_array, toValue, toValue, toValues_eq_map, toValues_eq_map,
      Value.eraseSpans_array, List.map_map, List.map_map]
    exact congrArg Value.array (List.map_congr_left ih)
  | _ => rfl

namespace Comparison

/-- Operands are checked by their type, which has no place. -/
theorem mismatch?_eraseSpans (op : CompareOp) (v : Literal) :
    op.mismatch? v.eraseSpans = op.mismatch? v := by
  cases v with
  | array items => rw [Literal.eraseSpans_array]; cases op <;> rfl
  | _ => cases op <;> rfl

theorem typeName_eraseSpans (v : Literal) : v.eraseSpans.typeName = v.typeName := by
  cases v with
  | marker kind raw span => cases kind <;> rfl
  | _ => rfl

theorem operand_eraseSpans (c : Comparison) : c.eraseSpans.operand = c.operand.eraseSpans := by
  simp only [operand, eraseSpans, Literal.toValue_eraseSpans]
  split
  · rfl
  · rw [Value.eraseSpans_document]
    rfl

theorem emit_eraseSpans (c : Comparison) : c.eraseSpans.emit =
    (c.emit.map Document.eraseSpans).mapError OperandMismatch.eraseSpan := by
  have hop : c.eraseSpans.op.mismatch? c.eraseSpans.value = c.op.mismatch? c.value :=
    mismatch?_eraseSpans c.op c.value
  rw [emit, emit, hop, operand_eraseSpans]
  cases c.op.mismatch? c.value with
  | none => rfl
  | some expected =>
    have htype : c.eraseSpans.value.typeName = c.value.typeName := typeName_eraseSpans c.value
    simp only [htype]
    rfl

end Comparison

namespace Document

theorem keys_eraseSpans (doc : Document) : Entries.keys doc.eraseSpans = Entries.keys doc := by
  rw [eraseSpans, Entries.keys, List.map_map]
  rfl

theorem eraseSpans_documents (key : String) (docs : List Document) :
    eraseSpans [(key, .array (docs.map .document))] =
      [(key, .array ((docs.map eraseSpans).map .document))] := by
  simp only [eraseSpans, List.map_singleton, Value.eraseSpans_array, List.map_map]
  congr 4
  funext doc
  exact Value.eraseSpans_document doc

/-- Whether documents are merged depends on their keys only. -/
theorem conjoin_eraseSpans (merge : Bool) (docs : List Document) :
    conjoin merge (docs.map eraseSpans) = (conjoin merge docs).eraseSpans := by
  have hkeys : (docs.map eraseSpans).flatMap Entries.keys = docs.flatMap Entries.keys := by
    rw [List.flatMap_map]
    exact List.flatMap_congr fun doc _ => keys_eraseSpans doc
  rw [conjoin, conjoin, disjoint, disjoint, hkeys]
  split
  · rename_i hmerge
    have hnodup : (docs.flatMap Entries.keys).Nodup :=
      of_decide_eq_true (Bool.and_eq_true_iff.mp hmerge).2
    rw [Entries.ofPairs_of_nodup, Entries.ofPairs_of_nodup]
    · rw [eraseSpans, List.map_flatten]
      rfl
    · rwa [Entries.keys, List.map_flatten, ← List.flatMap_def]
    · rw [← hkeys] at hnodup
      rwa [Entries.keys, List.map_flatten, ← List.flatMap_def]
  · exact (eraseSpans_documents "$and" docs).symm

end Document

namespace Query

/-- **Emission** does not look at places. -/
theorem emit_eraseSpans (merge : Bool) (q : Query) : q.eraseSpans.emit merge =
    ((q.emit merge).map Document.eraseSpans).mapError OperandMismatch.eraseSpan := by
  -- The documents of a chain are emitted one by one, up to the first error.
  have hall : ∀ operands : List Query,
      (∀ q ∈ operands, q.eraseSpans.emit merge =
        ((q.emit merge).map Document.eraseSpans).mapError OperandMismatch.eraseSpan) →
      emitAll merge (operands.map eraseSpans) =
        ((emitAll merge operands).map (List.map Document.eraseSpans)).mapError
          OperandMismatch.eraseSpan := by
    intro operands ih
    induction operands with
    | nil => rfl
    | cons q qs ihqs =>
      obtain ⟨hq, hqs⟩ := List.forall_mem_cons.mp ih
      rw [List.map_cons, emitAll, emitAll, hq, ihqs hqs]
      cases q.emit merge with
      | error e => rfl
      | ok doc =>
        cases emitAll merge qs with
        | error e => rfl
        | ok docs => rfl
  induction q with
  | comparison c => exact c.emit_eraseSpans
  | and operands ih =>
    rw [eraseSpans_and, emit, emit, hall operands ih]
    cases emitAll merge operands with
    | error e => rfl
    | ok docs => exact congrArg Except.ok (Document.conjoin_eraseSpans merge docs)
  | or operands ih =>
    rw [eraseSpans_or, emit, emit, hall operands ih]
    cases emitAll merge operands with
    | error e => rfl
    | ok docs => exact congrArg Except.ok (Document.eraseSpans_documents "$or" docs).symm
  | not operand ih =>
    rw [eraseSpans, emit, emit, ih]
    cases operand.emit merge with
    | error e => rfl
    | ok doc => exact congrArg Except.ok (Document.eraseSpans_documents "$nor" [doc]).symm
  | group content ih => exact ih

end Query

/-! ### Reviving -/

namespace Reviver

variable {r : Reviver}

theorem decode_eraseSpan (m : Marker) : (r.decode m.eraseSpan).mapError LiteralError.eraseSpan =
    (r.decode m).mapError LiteralError.eraseSpan := by
  rw [← decode_of_span, ← decode_of_span]
  rfl

/-- **Reviving** does not look at places either, but for those of its errors. -/
theorem revive_eraseSpans (v : Value) : (r.revive v.eraseSpans).mapError LiteralError.eraseSpan =
    (r.revive v).mapError LiteralError.eraseSpan := by
  induction v with
  | marker m => exact decode_eraseSpan m
  | array items ih =>
    rw [Value.eraseSpans_array, revive, revive, reviveItems_eq_mapM, reviveItems_eq_mapM,
      Except.mapError_map, Except.mapError_map, Except.mapM_mapError_congr ih]
  | document entries ih =>
    have hentry : ∀ e ∈ entries,
        ((r.revive e.2.eraseSpans).map (e.1, ·)).mapError LiteralError.eraseSpan =
          ((r.revive e.2).map (e.1, ·)).mapError LiteralError.eraseSpan := by
      intro e he
      rw [Except.mapError_map, Except.mapError_map, ih e he]
    rw [Value.eraseSpans_document, revive, revive, reviveEntries_eq_mapM, reviveEntries_eq_mapM,
      Except.mapError_map, Except.mapError_map, Except.mapM_mapError_congr hentry]
  | _ => rfl

/-- A document whose places do not matter is revived to the same filter. -/
theorem reviveDocument_eraseSpans (doc : Document) :
    (r.reviveDocument doc.eraseSpans).mapError LiteralError.eraseSpan =
      (r.reviveDocument doc).mapError LiteralError.eraseSpan := by
  rw [reviveDocument, reviveDocument, reviveEntries_eq_mapM, reviveEntries_eq_mapM]
  refine Except.mapM_mapError_congr ?_
  intro e _
  rw [Except.mapError_map, Except.mapError_map, revive_eraseSpans]

end Reviver

/-! ### Texts with the same tokens -/

namespace Compiler

/-- A stage that gives the same for what is the same up to places, places erased, keeps two
computations the same up to places. -/
theorem stage_alike {α β γ δ ε : Type} {x y : Except CompileError α} {place : α → γ}
    {next : α → Except ε β} {place' : β → δ} (stage : ε → CompileError) (erase : ε → ε)
    (hstage : ∀ e, (stage e).eraseSpan = stage (erase e))
    (hnext : ∀ a b, place a = place b →
      ((next a).map place').mapError erase = ((next b).map place').mapError erase)
    (h : (x.map place).mapError CompileError.eraseSpan =
      (y.map place).mapError CompileError.eraseSpan) :
    ((x >>= fun a => (next a).mapError stage).map place').mapError CompileError.eraseSpan =
      ((y >>= fun a => (next a).mapError stage).map place').mapError CompileError.eraseSpan := by
  rw [Except.map_mapError_eq_iff] at h ⊢
  rcases h with ⟨a, b, rfl, rfl, hab⟩ | ⟨e, e', rfl, rfl, he⟩
  · rcases Except.map_mapError_eq_iff.mp (hnext a b hab) with
      ⟨a', b', ha, hb, hab'⟩ | ⟨e, e', ha, hb, he⟩
    · refine .inl ⟨a', b', ?_, ?_, hab'⟩
      · exact congrArg (Except.mapError stage) ha
      · exact congrArg (Except.mapError stage) hb
    · refine .inr ⟨stage e, stage e', ?_, ?_, ?_⟩
      · exact congrArg (Except.mapError stage) ha
      · exact congrArg (Except.mapError stage) hb
      · rw [hstage, hstage, he]
  · exact .inr ⟨e, e', rfl, rfl, he⟩

variable {c : Compiler} {source source' : String} {tokens tokens' : List Token}

/-- The trees, or the errors, of texts with the same tokens differ in their places only. -/
theorem parse_alike (h : Token.ofText source = .ok tokens) (h' : Token.ofText source' = .ok tokens')
    (hkinds : tokens.map Token.kind = tokens'.map Token.kind) :
    ((c.parse source).map Query.eraseSpans).mapError CompileError.eraseSpan =
      ((c.parse source').map Query.eraseSpans).mapError CompileError.eraseSpan := by
  have hkinds' : ((Compiler.tokens source).map (List.map Token.kind)).mapError
      CompileError.eraseSpan =
        ((Compiler.tokens source').map (List.map Token.kind)).mapError CompileError.eraseSpan := by
    rw [Compiler.tokens, Compiler.tokens, h, h']
    exact congrArg Except.ok hkinds
  rw [parse_eq_bind, parse_eq_bind]
  refine stage_alike .syntactic SyntaxError.eraseSpan (fun _ => rfl) ?_ hkinds'
  intro ts ts' hts
  rw [← Query.ofTokens_map_eraseSpan, ← Query.ofTokens_map_eraseSpan, Token.map_eraseSpan,
    Token.map_eraseSpan, hts]

/-- The documents of texts with the same tokens differ in the places of their markers only. -/
theorem emit_alike (h : Token.ofText source = .ok tokens) (h' : Token.ofText source' = .ok tokens')
    (hkinds : tokens.map Token.kind = tokens'.map Token.kind) :
    ((c.emit source).map Document.eraseSpans).mapError CompileError.eraseSpan =
      ((c.emit source').map Document.eraseSpans).mapError CompileError.eraseSpan := by
  rw [emit_eq_bind, emit_eq_bind]
  refine stage_alike .operand OperandMismatch.eraseSpan (fun _ => rfl) ?_
    (parse_alike h h' hkinds)
  intro q q' hq
  rw [← Query.emit_eraseSpans, ← Query.emit_eraseSpans, hq]

/-- The filters of texts with the same tokens do not differ, and their errors in their places
only. -/
theorem compile_alike (h : Token.ofText source = .ok tokens)
    (h' : Token.ofText source' = .ok tokens')
    (hkinds : tokens.map Token.kind = tokens'.map Token.kind) :
    ((c.compile source).map id).mapError CompileError.eraseSpan =
      ((c.compile source').map id).mapError CompileError.eraseSpan := by
  rw [compile_eq_bind, compile_eq_bind]
  refine stage_alike .literal LiteralError.eraseSpan (fun _ => rfl) ?_ (emit_alike h h' hkinds)
  intro doc doc' hdoc
  rw [Except.map_id, id, id, ← Reviver.reviveDocument_eraseSpans, hdoc,
    Reviver.reviveDocument_eraseSpans]

/-- **Only the tokens count.** Two texts with the same tokens, wherever they stand and however they
are spelled, either have the same filter, or fail in the same stage with the same error but for its
place. -/
theorem compile_eq_of_kinds_eq (c : Compiler) (source source' : String)
    (tokens tokens' : List Token) (h : Token.ofText source = .ok tokens)
    (h' : Token.ofText source' = .ok tokens')
    (hkinds : tokens.map Token.kind = tokens'.map Token.kind) :
    (∃ filter, c.compile source = .ok filter ∧ c.compile source' = .ok filter) ∨
      ∃ e e', c.compile source = .error e ∧ c.compile source' = .error e' ∧
        e.eraseSpan = e'.eraseSpan := by
  rcases Except.map_mapError_eq_iff.mp (compile_alike (c := c) h h' hkinds) with
    ⟨filter, filter', hfilter, hfilter', rfl⟩ | herrors
  · exact .inl ⟨filter, hfilter, hfilter'⟩
  · exact .inr herrors

/-- `a=1&&b>date('soon')` and `a == 1 AND b > ISODate ( "soon" )` are refused for the same literal,
at different places. -/
theorem compile_of_respelled :
    let source := "a=1&&b>date('soon')"
    let source' := "a == 1 AND b > ISODate ( \"soon\" )"
    ∃ tokens tokens', Token.ofText source = .ok tokens ∧ Token.ofText source' = .ok tokens' ∧
      tokens.map Token.kind = tokens'.map Token.kind ∧
        ∃ e e', ({} : Compiler).compile source = .error e ∧
          ({} : Compiler).compile source' = .error e' ∧ e ≠ e' ∧ e.eraseSpan = e'.eraseSpan := by
  intro source source'
  let kinds : List TokenKind := [.field "a", .equal, .number (.int 1), .and, .field "b", .greater,
    .marker .date "soon", .endOfInput]
  obtain ⟨tokens, h, hkinds⟩ := Except.exists_of_toOption_any (x := Token.ofText source)
    (p := fun ts => ts.map Token.kind = kinds) (by decide +kernel)
  obtain ⟨tokens', h', hkinds'⟩ := Except.exists_of_toOption_any (x := Token.ofText source')
    (p := fun ts => ts.map Token.kind = kinds) (by decide +kernel)
  have hsame : tokens.map Token.kind = tokens'.map Token.kind :=
    (of_decide_eq_true hkinds).trans (of_decide_eq_true hkinds').symm
  have hfault : Except.fault? (({} : Compiler).compile source) =
      some (.literal ⟨.invalidDate, "soon", some ⟨7, 19⟩⟩) := by decide +kernel
  have hfault' : Except.fault? (({} : Compiler).compile source') =
      some (.literal ⟨.invalidDate, "soon", some ⟨15, 33⟩⟩) := by decide +kernel
  rw [Except.fault?_eq_some_iff] at hfault hfault'
  refine ⟨tokens, tokens', h, h', hsame, ?_⟩
  rcases compile_eq_of_kinds_eq {} source source' tokens tokens' h h' hsame with
    ⟨filter, hok, -⟩ | ⟨e, e', he, he', heq⟩
  · rw [hfault] at hok
    cases hok
  · rw [hfault] at he
    rw [hfault'] at he'
    cases he
    cases he'
    exact ⟨_, _, hfault, hfault', by decide, heq⟩

end Compiler

end QueryFilter
