import QueryFilter.Compiler
import QueryFilter.Proofs.Outcome
import QueryFilter.Proofs.Query.Completeness
import QueryFilter.Proofs.Token.Keys

/-!
# Trees of texts

What is known of a tree that was parsed from a text, whatever the text was: it is canonical, its
tokens are those of the text, and it is nested no deeper than the settings allow. The keys of its
fields are therefore field keys.

## Main results

* `Compiler.parse_eq_bind`, `Compiler.emit_eq_bind`, `Compiler.compile_eq_bind` — a stage is the one
  before it, and then its own step
* `Compiler.parse_eq_ok_iff`, `Compiler.emit_eq_ok_iff`, `Compiler.compile_eq_ok_iff` — a stage
  succeeds if the one before it does and its own step does
* `Compiler.spells_of_parse` — the tokens of a text spell its tree
* `Compiler.isFieldKey_of_parse` — the fields of a parsed tree have field keys
-/

namespace QueryFilter

namespace Compiler

/-! ### Stages -/

theorem parse_eq_bind (c : Compiler) (source : String) : c.parse source =
    tokens source >>= fun ts => (Query.ofTokens c.settings.maxDepth ts).mapError .syntactic := by
  rw [parse]
  cases tokens source with
  | error e => rfl
  | ok ts => rfl

theorem emit_eq_bind (c : Compiler) (source : String) : c.emit source =
    c.parse source >>= fun q => (q.emit c.settings.mergeConjunctions).mapError .operand := by
  rw [emit]
  cases c.parse source with
  | error e => rfl
  | ok q => rfl

theorem compile_eq_bind (c : Compiler) (source : String) : c.compile source =
    c.emit source >>= fun doc => (c.reviver.reviveDocument doc).mapError .literal := by
  rw [compile]
  cases c.emit source with
  | error e => rfl
  | ok doc => rfl

theorem parse_eq_ok_iff {c : Compiler} {source : String} {q : Query} :
    c.parse source = .ok q ↔ ∃ tokens, Token.ofText source = .ok tokens ∧
      Query.ofTokens c.settings.maxDepth tokens = .ok q := by
  rw [parse, Compiler.tokens]
  cases Token.ofText source with
  | error e => simp [Except.mapError]
  | ok tokens => simpa [Except.mapError] using Except.mapError_eq_ok_iff

theorem emit_eq_ok_iff {c : Compiler} {source : String} {doc : Document} :
    c.emit source = .ok doc ↔
      ∃ q, c.parse source = .ok q ∧ q.emit c.settings.mergeConjunctions = .ok doc := by
  rw [emit]
  cases c.parse source with
  | error e => simp
  | ok q => simpa using Except.mapError_eq_ok_iff

theorem compile_eq_ok_iff {c : Compiler} {source : String} {filter : Document} :
    c.compile source = .ok filter ↔
      ∃ doc, c.emit source = .ok doc ∧ c.reviver.reviveDocument doc = .ok filter := by
  rw [compile]
  cases c.emit source with
  | error e => simp
  | ok doc => simpa using Except.mapError_eq_ok_iff

/-! ### Trees -/

/-- The tokens of a text, without the end of input, spell its tree. -/
theorem spells_of_parse {c : Compiler} {source : String} {q : Query} (h : c.parse source = .ok q) :
    ∃ tokens stop, Token.ofText source = .ok (tokens ++ [⟨.endOfInput, .point stop⟩]) ∧
      Query.Spells c.settings.maxDepth (tokens.map Token.kind) q := by
  obtain ⟨found, htext, hq⟩ := parse_eq_ok_iff.mp h
  obtain ⟨front, stop, rfl, hend⟩ := Token.exists_front_of_ofText htext
  exact ⟨front, stop, htext, Query.spells_of_ofTokens hend (by simp) hq⟩

/-- The fields of a parsed tree have field keys. -/
theorem isFieldKey_of_parse {c : Compiler} {source : String} {q : Query}
    (h : c.parse source = .ok q) :
    ∀ d ∈ q.comparisons, Token.isFieldKey d.field.dotted := by
  intro d hd
  obtain ⟨tokens, stop, htext, hspells⟩ := spells_of_parse h
  have hmem : .field d.field.dotted ∈ q.render :=
    Query.render_subset_of_mem_comparisons hd List.mem_cons_self
  rw [hspells.render_eq, List.mem_map] at hmem
  obtain ⟨t, ht, hkind⟩ := hmem
  exact Token.isFieldKey_of_mem_ofText htext (List.mem_append_left _ ht) hkind

end Compiler

end QueryFilter
