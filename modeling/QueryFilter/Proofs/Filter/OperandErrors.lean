import QueryFilter.Proofs.Filter.Emission

/-!
# Operand errors stand at the first bad comparison

Membership needs an array, a pattern a string and presence a boolean. A query is emitted unless one
of its comparisons has another operand, and the error is then about the first such comparison, at
whatever depth it stands. Nothing else can go wrong in emission: whether conjunctions can be merged
is found out only after all of them are emitted, so it has no say in errors.

## Main definitions

* `CompareOp.Misses` — an operator at an operand of the wrong type
* `CompareOp.HasSymbol`, `Literal.HasTypeName` — how operators and types are called in errors

## Main results

* `Query.fault?_emit` — the error of emission is that of the first bad comparison
* `Query.operandMismatch_at_first_comparison` — when emission fails, and how
-/

namespace QueryFilter

/-- An operator at a literal that is not of the type of operand that it needs, and the name of that
type. -/
inductive CompareOp.Misses : CompareOp → Literal → String → Prop where
  | member {v : Literal} (h : ∀ items, v ≠ .array items) : Misses member v "an array"
  | notMember {v : Literal} (h : ∀ items, v ≠ .array items) : Misses notMember v "an array"
  | pattern {v : Literal} (h : ∀ text, v ≠ .string text) : Misses pattern v "a string"
  | present {v : Literal} (h : ∀ b, v ≠ .boolean b) : Misses present v "a boolean"

theorem CompareOp.misses_iff {op : CompareOp} {v : Literal} {expected : String} :
    op.Misses v expected ↔ op.mismatch? v = some expected := by
  constructor
  · intro h
    cases h with
    | member h | notMember h =>
      cases v with
      | array items => exact absurd rfl (h items)
      | _ => rfl
    | pattern h =>
      cases v with
      | string text => exact absurd rfl (h text)
      | _ => rfl
    | present h =>
      cases v with
      | boolean b => exact absurd rfl (h b)
      | _ => rfl
  · intro h
    rw [mismatch?.eq_def] at h
    split at h
    · cases h
    · cases h
    · rename_i hvalue
      cases h
      exact .member hvalue
    · rename_i hvalue
      cases h
      exact .notMember hvalue
    · cases h
    · rename_i hvalue
      cases h
      exact .pattern hvalue
    · cases h
    · rename_i hvalue
      cases h
      exact .present hvalue
    · cases h

/-- How an operator is called in errors. -/
inductive CompareOp.HasSymbol : CompareOp → String → Prop
  | equal : HasSymbol equal "="
  | notEqual : HasSymbol notEqual "!="
  | greater : HasSymbol greater ">"
  | greaterEqual : HasSymbol greaterEqual ">="
  | less : HasSymbol less "<"
  | lessEqual : HasSymbol lessEqual "<="
  | member : HasSymbol member "IN"
  | notMember : HasSymbol notMember "NOT IN"
  | pattern : HasSymbol pattern "~"
  | present : HasSymbol present "EXISTS"

theorem CompareOp.hasSymbol_symbol (op : CompareOp) : op.HasSymbol op.symbol := by
  cases op <;> constructor

/-- How the type of a literal is called in errors. -/
inductive Literal.HasTypeName : Literal → String → Prop
  | string (text : String) : HasTypeName (.string text) "a string"
  | number (n : Number) : HasTypeName (.number n) "a number"
  | boolean (b : Bool) : HasTypeName (.boolean b) "a boolean"
  | null : HasTypeName .null "null"
  | array (items : List Literal) : HasTypeName (.array items) "an array"
  | date (raw : String) (span : Span) : HasTypeName (.marker .date raw span) "a date"
  | objectId (raw : String) (span : Span) :
    HasTypeName (.marker .objectId raw span) "an ObjectId"

theorem Literal.hasTypeName_typeName (v : Literal) : v.HasTypeName v.typeName := by
  cases v with
  | marker kind raw span => cases kind <;> constructor
  | _ => constructor

/-- A comparison whose operand is of the wrong type, and the error that says so at its place. -/
def Comparison.Fails (c : Comparison) (e : OperandMismatch) : Prop :=
  ∃ expected, c.op.Misses c.value expected ∧
    e = ⟨c.span, c.op.symbol, expected, c.value.typeName⟩

theorem Comparison.fails_iff (c : Comparison) (e : OperandMismatch) :
    c.Fails e ↔ Except.fault? c.emit = some e := by
  rw [Fails, Except.fault?_eq_some_iff, emit]
  simp only [CompareOp.misses_iff]
  cases c.op.mismatch? c.value with
  | none => simp
  | some expected => simp [eq_comm]

namespace Query

/-- **The error of emission is that of the first bad comparison**, whether conjunctions are merged
or not. -/
theorem fault?_emit (merge : Bool) (q : Query) :
    Except.fault? (q.emit merge) = q.comparisons.findSome? fun c => Except.fault? c.emit := by
  induction q with
  | comparison c => exact List.findSome?_singleton.symm
  | and operands ih | or operands ih =>
    rw [emit, Except.fault?_map, emitAll_eq_mapM, comparisons, allComparisons_eq_flatMap,
      Except.fault?_mapM_flatMap ih]
  | not operand ih =>
    rw [emit, Except.fault?_map, ih]
    rfl
  | group content ih => exact ih

/-- **An operand error is about the first bad comparison.** A query fails to be emitted if and only
if one of its comparisons has an operand of the wrong type; the error is about the first of them
from left to right, and has its place, its operator, the type that the operator needs and the type
of the operand, called as they are in errors. So it is the same with merging on and off. -/
theorem operandMismatch_at_first_comparison (q : Query) (merge : Bool) :
    ((∃ e, q.emit merge = .error e) ↔
        ∃ c ∈ q.comparisons, ∃ expected, c.op.Misses c.value expected) ∧
      (∀ e, q.emit merge = .error e ↔
        ∃ before c after expected, q.comparisons = before ++ c :: after ∧
          (∀ d ∈ before, ∀ other, ¬ d.op.Misses d.value other) ∧
          c.op.Misses c.value expected ∧
          e = ⟨c.span, c.op.symbol, expected, c.value.typeName⟩) ∧
      (∀ c ∈ q.comparisons, c.op.HasSymbol c.op.symbol ∧ c.value.HasTypeName c.value.typeName) ∧
      ∀ other e, q.emit other = .error e ↔ q.emit merge = .error e := by
  have hfirst : ∀ other e, q.emit other = .error e ↔
      (q.comparisons.findSome? fun c => Except.fault? c.emit) = some e := by
    intro other e
    rw [← Except.fault?_eq_some_iff, fault?_emit]
  have hfails : ∀ c : Comparison,
      (∃ e, c.Fails e) ↔ ∃ expected, c.op.Misses c.value expected := by
    intro c
    constructor
    · rintro ⟨e, expected, hmiss, -⟩
      exact ⟨expected, hmiss⟩
    · rintro ⟨expected, hmiss⟩
      exact ⟨_, expected, hmiss, rfl⟩
  refine ⟨?_, ?_, ?_, ?_⟩
  · simp only [hfirst, Except.exists_findSome?_iff Comparison.fails_iff, hfails]
  · intro e
    rw [hfirst, Except.findSome?_eq_some_iff_first Comparison.fails_iff]
    simp only [← not_exists, hfails]
    constructor
    · rintro ⟨before, c, after, heq, hbefore, expected, hmiss, he⟩
      exact ⟨before, c, after, expected, heq, hbefore, hmiss, he⟩
    · rintro ⟨before, c, after, expected, heq, hbefore, hmiss, he⟩
      exact ⟨before, c, after, heq, hbefore, expected, hmiss, he⟩
  · intro c _
    exact ⟨c.op.hasSymbol_symbol, c.value.hasTypeName_typeName⟩
  · intro other e
    rw [hfirst, hfirst]

/-- `a IN [5] OR NOT (b ~ 5 AND c IN 7)`: the first operand is as it should be, and of the two bad
ones that of the pattern comes first. -/
theorem operandMismatch_at_pattern :
    let five := Literal.number (.int 5)
    let a : Comparison := ⟨⟨["a"]⟩, .member, .array [five], ⟨0, 8⟩⟩
    let b : Comparison := ⟨⟨["b"]⟩, .pattern, five, ⟨17, 22⟩⟩
    let c : Comparison := ⟨⟨["c"]⟩, .member, .number (.int 7), ⟨27, 33⟩⟩
    let q := or [comparison a, not (group (and [comparison b, comparison c]))]
    q.comparisons = [a] ++ b :: [c] ∧ (∀ other, ¬ a.op.Misses a.value other) ∧
      q.emit true = .error ⟨⟨17, 22⟩, "~", "a string", "a number"⟩ ∧
      q.emit false = .error ⟨⟨17, 22⟩, "~", "a string", "a number"⟩ := by
  intro five a b c q
  have ha : ∀ other, ¬ a.op.Misses a.value other := by
    rintro other ⟨h⟩
    exact h [five] rfl
  have hb : b.op.Misses b.value "a string" := .pattern (fun _ => Literal.noConfusion)
  have herror : q.emit true = .error ⟨⟨17, 22⟩, "~", "a string", "a number"⟩ := by
    refine ((operandMismatch_at_first_comparison q true).2.1 _).mpr
      ⟨[a], b, [c], "a string", rfl, ?_, hb, rfl⟩
    intro d hd
    rw [List.mem_singleton.mp hd]
    exact ha
  exact ⟨rfl, ha, herror, ((operandMismatch_at_first_comparison q true).2.2.2 false _).mpr herror⟩

end Query

end QueryFilter
