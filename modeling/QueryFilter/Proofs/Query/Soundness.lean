import QueryFilter.Proofs.Query.Places

/-!
# What the parser accepts is spelled by the tree it returns

The invariant of the parser has two halves. The tokens read so far are the *word* of the state: what
is open around the current place, then the chain, then what has been read of the current operand.
And everything that is finished is canonical and leaves room for the levels that are open around it,
so that closing a level never exceeds the limit.

A state in which one level too many was opened has no word that matters: it accepts no token and no
end of input, so it never leads to a tree.

## Main definitions

* `Query.State.feed?` — the state after several tokens
* `Query.State.word` — the tokens that lead to a state
* `Query.State.Valid` — the finished parts are canonical and fit the limit

## Main results

* `Query.State.run_eq_ok_iff` — a run succeeds if its tokens lead to a state that may end
* `Query.State.next?_advances` — one token extends the word and keeps the state valid
* `Query.State.feed?_advances` — so do several
* `Query.State.spells_of_feed?` — a tree that is returned is spelled by the tokens
-/

namespace QueryFilter

namespace Query

/-! ### Runs -/

namespace State

/-- The state after several tokens, if the grammar allows them. -/
def feed? (limit : Nat) (s : State) : List Token → Option State
  | [] => some s
  | token :: tokens => (s.next? limit token).bind fun next => next.feed? limit tokens

theorem feed?_append (limit : Nat) (s : State) (first second : List Token) :
    s.feed? limit (first ++ second) =
      (s.feed? limit first).bind fun next => next.feed? limit second := by
  induction first generalizing s with
  | nil => rfl
  | cons token first ih =>
    rw [List.cons_append, feed?, feed?, Option.bind_assoc]
    congr 1
    funext next
    exact ih next

theorem finish_eq_ok_iff {limit : Nat} {s : State} {token : Token} {q : Query} :
    s.finish limit token = .ok q ↔ s.mode = .afterOperand ∧ s.frames = [] ∧ s.chain.close = q := by
  obtain ⟨frames, chain, mode⟩ := s
  cases mode with
  | afterOperand =>
    cases frames with
    | nil => simp [finish]
    | cons frame frames => simp [finish]
  | _ => simp [finish]

/-- A run gives a tree if its tokens lead to a state in which nothing is open. What comes after the
tokens is the end of input, written or not. -/
theorem run_eq_ok_iff {limit : Nat} {s : State} {stop : Nat} {tokens tail : List Token} {q : Query}
    (hend : ∀ t ∈ tokens, t.kind ≠ .endOfInput)
    (htail : ∀ t ∈ tail.head?, t.kind = .endOfInput) :
    s.run limit stop (tokens ++ tail) = .ok q ↔ ∃ last, s.feed? limit tokens = some last ∧
      last.mode = .afterOperand ∧ last.frames = [] ∧ last.chain.close = q := by
  induction tokens generalizing s stop with
  | nil =>
    cases tail with
    | nil => simp [run, feed?, finish_eq_ok_iff]
    | cons token tail =>
      have htoken : token.kind = .endOfInput := htail token rfl
      rw [List.nil_append, run, if_pos htoken, finish_eq_ok_iff]
      simp [feed?]
  | cons token tokens ih =>
    obtain ⟨htoken, hrest⟩ := List.forall_mem_cons.mp hend
    rw [List.cons_append, run, if_neg htoken, step, feed?]
    cases hnext : s.next? limit token with
    | none => simp
    | some next => exact ih hrest

end State

/-! ### Words -/

/-- The tokens of a chain up to the operand that is still to come. -/
def Chain.lead (chain : Chain) : List TokenKind :=
  chain.disjuncts.reverse.flatMap (·.render ++ [.or]) ++
    chain.conjuncts.reverse.flatMap (·.render ++ [.and])

namespace Chain

theorem render_close (chain : Chain) : chain.close.render =
    chain.disjuncts.reverse.flatMap (·.render ++ [.or]) ++
      (conjunction chain.conjuncts.reverse).render := by
  rw [close, split, render_disjunction, List.reverse_cons, List.map_append, List.map_singleton,
    intercalate_concat, List.flatMap_map]

theorem render_close_add (chain : Chain) (q : Query) :
    (chain.add q).close.render = chain.lead ++ q.render := by
  rw [render_close, add, List.reverse_cons, render_conjunction, List.map_append,
    List.map_singleton, intercalate_concat, List.flatMap_map, lead, List.append_assoc]

theorem lead_split (chain : Chain) : chain.split.lead = chain.close.render ++ [.or] := by
  rw [lead, render_close, split]
  simp

/-- After an operand, `AND` leads to the next one. -/
theorem lead_of_ne_nil {chain : Chain} (h : chain.conjuncts ≠ []) :
    chain.lead = chain.close.render ++ [.and] := by
  obtain ⟨q, qs, hqs⟩ := List.exists_cons_of_ne_nil h
  rw [render_close, render_conjunction, lead, hqs, List.reverse_cons, List.map_append,
    List.map_singleton, intercalate_concat, List.flatMap_map, List.flatMap_append]
  simp

end Chain

/-- The tokens before the current chain and those of the chain, given the latter, and the negations
after them. -/
def framesLead : List Frame → List TokenKind → List TokenKind
  | [], word => word
  | .negation :: frames, word => framesLead frames word ++ [.not]
  | .group outer :: frames, word => framesLead frames outer.lead ++ .leftParen :: word

/-- The tokens of a comparison up to its literal. -/
def Pending.render (pending : Pending) : List TokenKind :=
  .field pending.field.dotted :: pending.op.render

/-- The tokens of the arrays that are open, up to an item that is still to come. -/
def arraysLead : List (List Literal) → List TokenKind
  | [] => []
  | items :: outer =>
    arraysLead outer ++ .leftBracket :: items.reverse.flatMap (·.render ++ [.comma])

/-- The tokens that have been read of the current operand. -/
def Mode.word : Mode → List TokenKind
  | operator field _ => [.field field.dotted]
  | negatedOperator field _ => [.field field.dotted, .not]
  | literal pending arrays => pending.render ++ arraysLead arrays
  | firstItem pending outer => pending.render ++ arraysLead outer ++ [.leftBracket]
  | afterItem pending items outer =>
    pending.render ++ arraysLead outer ++
      .leftBracket :: [.comma].intercalate (items.reverse.map Literal.render)
  | start | operand | afterOperand | tooDeep => []

/-- The tokens that lead to a state. -/
def State.word (s : State) : List TokenKind :=
  match s.mode with
  | .afterOperand => framesLead s.frames s.chain.close.render
  | mode => framesLead s.frames s.chain.lead ++ mode.word

/-! ### Validity -/

/-- The finished operands of a chain that stands inside `depth` levels. -/
structure Chain.Valid (limit depth : Nat) (chain : Chain) : Prop where
  /-- Finished operands of `OR` are canonical and no chains of `OR` themselves. -/
  disjunct : ∀ q ∈ chain.disjuncts,
    q.isCanonical ∧ q.isDisjunction = false ∧ depth + q.nesting ≤ limit
  /-- Operands of `AND` are canonical and no chains. -/
  conjunct : ∀ q ∈ chain.conjuncts, q.isCanonical ∧ q.isOperand ∧ depth + q.nesting ≤ limit

/-- The number of levels around the current chain: the negations on top stand in it. -/
def chainDepth : List Frame → Nat
  | .negation :: frames => chainDepth frames
  | frames => frames.length

theorem chainDepth_le (frames : List Frame) : chainDepth frames ≤ frames.length := by
  induction frames with
  | nil => exact Nat.le_refl 0
  | cons frame frames ih =>
    cases frame with
    | negation => exact Nat.le_succ_of_le ih
    | group outer => exact Nat.le_refl _

/-- Where no negation waits, nothing is open or a group is the last thing opened. -/
theorem frames_cases {frames : List Frame} (h : chainDepth frames = frames.length) :
    frames = [] ∨ ∃ outer rest, frames = .group outer :: rest := by
  rcases frames with _ | ⟨_ | outer, rest⟩
  · exact .inl rfl
  · have hle : chainDepth rest ≤ rest.length := chainDepth_le rest
    rw [chainDepth, List.length_cons] at h
    omega
  · exact .inr ⟨outer, rest, rfl⟩

/-- An operand with no negation before it joins the chain. -/
theorem State.settle_of_chainDepth {frames : List Frame} (h : chainDepth frames = frames.length)
    (chain : Chain) (q : Query) : settle chain q frames = ⟨frames, chain.add q, .afterOperand⟩ := by
  rcases frames_cases h with rfl | ⟨outer, rest, rfl⟩
  · rfl
  · rfl

/-- All chains that wait for a group to end are valid. -/
def FramesValid (limit : Nat) : List Frame → Prop
  | [] => True
  | .negation :: frames => FramesValid limit frames
  | .group outer :: frames => outer.Valid limit (chainDepth frames) ∧ FramesValid limit frames

/-- The arrays that are open inside `depth` levels leave room for their items. -/
def ArraysValid (limit depth : Nat) : List (List Literal) → Prop
  | [] => depth ≤ limit
  | items :: outer => depth + (outer.length + 1) ≤ limit ∧
    (∀ v ∈ items, depth + (outer.length + 1) + v.nesting ≤ limit) ∧ ArraysValid limit depth outer

theorem ArraysValid.room {limit depth : Nat} {arrays : List (List Literal)}
    (h : ArraysValid limit depth arrays) : depth + arrays.length ≤ limit := by
  cases arrays with
  | nil => exact h
  | cons items outer => exact h.1

/-- A comparison that waits for its literal has a proper field and an operator that takes one. -/
def Pending.Valid (pending : Pending) : Prop := pending.field.isProper ∧ pending.op ≠ .present

/-- What has been read of the current operand is valid inside `depth` levels. -/
def Mode.Valid (limit depth : Nat) : Mode → Prop
  | operator field _ | negatedOperator field _ => field.isProper
  | literal pending arrays => pending.Valid ∧ ArraysValid limit depth arrays
  | firstItem pending outer => pending.Valid ∧ ArraysValid limit depth ([] :: outer)
  | afterItem pending items outer =>
    pending.Valid ∧ items ≠ [] ∧ ArraysValid limit depth (items :: outer)
  | start | operand | afterOperand => True
  | tooDeep => False

/-- All that is finished is canonical, and what is open leaves room for it. -/
structure State.Valid (limit : Nat) (s : State) : Prop where
  /-- The chains that wait are valid. -/
  frames : FramesValid limit s.frames
  /-- The current chain is valid. -/
  chain : s.chain.Valid limit (chainDepth s.frames)
  /-- Not too many levels are open. -/
  depth : s.frames.length ≤ limit
  /-- The current operand is valid. -/
  mode : s.mode.Valid limit s.frames.length
  /-- A finished operand has closed its negations and joined the chain. -/
  settled : s.mode = .afterOperand →
    s.chain.conjuncts ≠ [] ∧ chainDepth s.frames = s.frames.length

theorem Chain.valid_empty (limit depth : Nat) : Chain.empty.Valid limit depth :=
  ⟨fun _ h => absurd h List.not_mem_nil, fun _ h => absurd h List.not_mem_nil⟩

theorem Chain.Valid.add {limit depth : Nat} {chain : Chain} (h : chain.Valid limit depth)
    {q : Query} (hq : q.isCanonical) (hop : q.isOperand) (hfit : depth + q.nesting ≤ limit) :
    (chain.add q).Valid limit depth :=
  ⟨h.disjunct, List.forall_mem_cons.mpr ⟨⟨hq, hop, hfit⟩, h.conjunct⟩⟩

/-- The operands of `AND` that end are an operand of `OR`. -/
theorem Chain.Valid.conjunction {limit depth : Nat} {chain : Chain} (h : chain.Valid limit depth)
    (hne : chain.conjuncts ≠ []) (hdepth : depth ≤ limit) :
    (conjunction chain.conjuncts.reverse).isCanonical ∧
      (conjunction chain.conjuncts.reverse).isDisjunction = false ∧
      depth + (conjunction chain.conjuncts.reverse).nesting ≤ limit := by
  have hmem : ∀ q ∈ chain.conjuncts.reverse, q ∈ chain.conjuncts :=
    fun q hq => List.mem_reverse.mp hq
  obtain ⟨hcan, hdis⟩ := isCanonical_conjunction (by simpa using hne)
    (fun q hq => (h.conjunct q (hmem q hq)).2.1) (fun q hq => (h.conjunct q (hmem q hq)).1)
  have hnest : (Query.conjunction chain.conjuncts.reverse).nesting ≤ limit - depth :=
    nesting_conjunction_le fun q hq => by have := (h.conjunct q (hmem q hq)).2.2; omega
  exact ⟨hcan, hdis, by omega⟩

theorem Chain.Valid.split {limit depth : Nat} {chain : Chain} (h : chain.Valid limit depth)
    (hne : chain.conjuncts ≠ []) (hdepth : depth ≤ limit) : chain.split.Valid limit depth :=
  ⟨List.forall_mem_cons.mpr ⟨h.conjunction hne hdepth, h.disjunct⟩,
    fun _ hq => absurd hq List.not_mem_nil⟩

/-- A chain that ends is a canonical query. -/
theorem Chain.Valid.close {limit depth : Nat} {chain : Chain} (h : chain.Valid limit depth)
    (hne : chain.conjuncts ≠ []) (hdepth : depth ≤ limit) :
    chain.close.isCanonical ∧ depth + chain.close.nesting ≤ limit := by
  have hmem : ∀ q ∈ chain.split.disjuncts.reverse,
      q.isCanonical ∧ q.isDisjunction = false ∧ depth + q.nesting ≤ limit :=
    fun q hq => (h.split hne hdepth).disjunct q (List.mem_reverse.mp hq)
  have hnest : chain.close.nesting ≤ limit - depth :=
    nesting_disjunction_le fun q hq => by have := (hmem q hq).2.2; omega
  exact ⟨isCanonical_disjunction (by simp [Chain.split]) (fun q hq => (hmem q hq).2.1)
    fun q hq => (hmem q hq).1, by omega⟩

namespace State

/-! ### Moves -/

/-- A valid state stays so when something else is read, as long as no operand ends. -/
theorem Valid.withMode {limit : Nat} {s : State} {mode : Mode} (h : s.Valid limit)
    (hvalid : mode.Valid limit s.frames.length) (hmode : mode ≠ .afterOperand) :
    ({ s with mode } : State).Valid limit := by
  refine ⟨h.frames, h.chain, h.depth, hvalid, ?_⟩
  intro hafter
  exact absurd hafter hmode

/-- A token leads from one state to another: either it opened one level too many, or the word has
grown by it and the state is still valid. -/
def Advances (limit : Nat) (s : State) (kind : TokenKind) (next : State) : Prop :=
  next.mode = .tooDeep ∨ next.Valid limit ∧ next.word = s.word ++ [kind]

/-- A finished operand leads to a valid state, whose word ends with the operand. -/
theorem settle_valid {limit : Nat} {chain : Chain} {q : Query} {frames : List Frame}
    (hframes : FramesValid limit frames) (hchain : chain.Valid limit (chainDepth frames))
    (hq : q.isCanonical) (hop : q.isOperand) (hfit : frames.length + q.nesting ≤ limit) :
    (settle chain q frames).Valid limit ∧
      (settle chain q frames).word = framesLead frames chain.lead ++ q.render := by
  induction frames generalizing q with
  | nil =>
    refine ⟨⟨trivial, hchain.add hq hop hfit, Nat.zero_le limit, trivial, fun _ => ?_⟩, ?_⟩
    · exact ⟨List.cons_ne_nil _ _, rfl⟩
    · exact chain.render_close_add q
  | cons frame frames ih =>
    cases frame with
    | negation =>
      have hnot : (Query.not q).isCanonical := by
        rw [isCanonical, hop, hq, Bool.and_self]
      have hfit' : frames.length + (Query.not q).nesting ≤ limit := by
        rw [List.length_cons] at hfit
        rw [nesting]
        omega
      obtain ⟨hvalid, hword⟩ := ih hframes hchain hnot rfl hfit'
      refine ⟨hvalid, ?_⟩
      rw [settle, hword, render, framesLead, List.append_assoc, List.singleton_append]
    | group outer =>
      refine ⟨⟨hframes, hchain.add hq hop hfit, Nat.le_of_add_right_le hfit, trivial,
        fun _ => ?_⟩, ?_⟩
      · exact ⟨List.cons_ne_nil _ _, rfl⟩
      · change framesLead frames outer.lead ++ .leftParen :: (chain.add q).close.render = _
        rw [chain.render_close_add, framesLead, List.append_assoc, List.cons_append]

/-- A finished comparison. -/
theorem compare_valid {limit : Nat} {s : State} (pending : Pending) {value : Literal} {stop : Nat}
    (h : s.Valid limit) (hc : (⟨pending.field, pending.op, value, ⟨pending.start, stop⟩⟩ :
      Comparison).isCanonical) (hfit : s.frames.length + value.nesting ≤ limit) :
    (s.compare pending value stop).Valid limit ∧ (s.compare pending value stop).word =
      framesLead s.frames s.chain.lead ++
        (⟨pending.field, pending.op, value, ⟨pending.start, stop⟩⟩ : Comparison).render :=
  settle_valid h.frames h.chain hc rfl hfit

/-- An operator that takes a literal is spelled before it. -/
theorem render_of_valid {pending : Pending} (h : pending.Valid) (value : Literal) (span : Span) :
    (⟨pending.field, pending.op, value, span⟩ : Comparison).isCanonical ∧
      (⟨pending.field, pending.op, value, span⟩ : Comparison).render =
        pending.render ++ value.render := by
  obtain ⟨field, start, op⟩ := pending
  obtain ⟨hfield, hop⟩ := h
  cases op with
  | present => exact absurd rfl hop
  | _ => exact ⟨by simpa [Comparison.isCanonical] using hfield, rfl⟩

/-- A finished literal is the value of the comparison, or an item of the innermost array. -/
theorem deliver_valid {limit : Nat} {s : State} {pending : Pending} {value : Literal} (stop : Nat)
    {arrays : List (List Literal)} (h : s.Valid limit) (hpending : pending.Valid)
    (harrays : ArraysValid limit s.frames.length arrays)
    (hfit : s.frames.length + arrays.length + value.nesting ≤ limit) :
    (s.deliver pending value stop arrays).Valid limit ∧
      (s.deliver pending value stop arrays).word =
        framesLead s.frames s.chain.lead ++ (pending.render ++ arraysLead arrays) ++
          value.render := by
  cases arrays with
  | nil =>
    obtain ⟨hcan, hrender⟩ := render_of_valid hpending value ⟨pending.start, stop⟩
    obtain ⟨hvalid, hword⟩ := compare_valid pending h hcan hfit
    refine ⟨hvalid, ?_⟩
    rw [deliver, hword, hrender, arraysLead, List.append_nil, List.append_assoc]
  | cons items outer =>
    obtain ⟨hroom, hitems, houter⟩ := harrays
    have hitems' : ∀ v ∈ value :: items, s.frames.length + (outer.length + 1) + v.nesting ≤ limit :=
      List.forall_mem_cons.mpr ⟨hfit, hitems⟩
    refine ⟨h.withMode ⟨hpending, List.cons_ne_nil _ _, hroom, hitems', houter⟩ (by simp), ?_⟩
    change framesLead s.frames s.chain.lead ++ (pending.render ++ arraysLead outer ++
      .leftBracket :: [.comma].intercalate ((value :: items).reverse.map Literal.render)) = _
    rw [List.reverse_cons, List.map_append, List.map_singleton, intercalate_concat,
      List.flatMap_map, arraysLead]
    simp only [List.append_assoc, List.cons_append]

/-- Opening a level: it is one too many, or there is room for it. -/
theorem deepen_cases (s : State) (limit depth : Nat) (mode : Mode) :
    (s.deepen limit depth mode).mode = .tooDeep ∨
      depth < limit ∧ s.deepen limit depth mode = { s with mode := mode } := by
  rw [deepen]
  split
  · rename_i hdepth
    exact .inr ⟨hdepth, rfl⟩
  · exact .inl rfl

/-- A scalar is spelled by its token and opens no array. -/
theorem render_of_ofToken? {token : Token} {value : Literal}
    (h : Literal.ofToken? token = some value) :
    value.render = [token.kind] ∧ value.nesting = 0 := by
  obtain ⟨kind, span⟩ := token
  cases kind with
  | string _ | number _ | boolean _ | null | marker _ _ =>
    cases h
    exact ⟨rfl, rfl⟩
  | _ => cases h

theorem readLiteral?_advances {limit : Nat} {s next : State} {token : Token} {pending : Pending}
    {arrays : List (List Literal)} (h : s.Valid limit) (hpending : pending.Valid)
    (harrays : ArraysValid limit s.frames.length arrays)
    (hread : s.readLiteral? limit token pending arrays = some next) :
    next.mode = .tooDeep ∨ next.Valid limit ∧ next.word =
      framesLead s.frames s.chain.lead ++ (pending.render ++ arraysLead arrays) ++
        [token.kind] := by
  by_cases hkind : token.kind = .leftBracket
  · rw [readLiteral?, hkind, Option.some.injEq] at hread
    subst hread
    rcases deepen_cases s limit (s.frames.length + arrays.length) (.firstItem pending arrays) with
      hdeep | ⟨hdepth, heq⟩
    · exact .inl hdeep
    · have hroom : s.frames.length + (arrays.length + 1) ≤ limit := by omega
      have hitems : ∀ v ∈ ([] : List Literal),
          s.frames.length + (arrays.length + 1) + v.nesting ≤ limit := by simp
      rw [heq]
      refine .inr ⟨h.withMode ⟨hpending, hroom, hitems, harrays⟩ (by simp), ?_⟩
      change framesLead s.frames s.chain.lead ++ (pending.render ++ arraysLead arrays ++
        [.leftBracket]) = _
      rw [hkind, List.append_assoc (framesLead _ _)]
  · rw [readLiteral?_of_ne hkind, Option.map_eq_some_iff] at hread
    obtain ⟨value, hvalue, rfl⟩ := hread
    obtain ⟨hrender, hnesting⟩ := render_of_ofToken? hvalue
    have hroom := harrays.room
    rw [← hrender]
    exact .inr (deliver_valid token.span.stop h hpending harrays (by omega))

theorem readOperand?_advances {limit : Nat} {s next : State} {token : Token} (h : s.Valid limit)
    (hword : s.word = framesLead s.frames s.chain.lead)
    (hread : s.readOperand? limit token = some next) : Advances limit s token.kind next := by
  obtain ⟨kind, span⟩ := token
  rw [Advances, hword]
  cases kind with
  | not =>
    cases hread
    rcases deepen_cases { s with frames := .negation :: s.frames } limit s.frames.length .operand
      with hdeep | ⟨hdepth, heq⟩
    · exact .inl hdeep
    · rw [heq]
      exact .inr ⟨⟨h.frames, h.chain, hdepth, trivial, by simp⟩, List.append_nil _⟩
  | leftParen =>
    cases hread
    rcases deepen_cases { s with frames := .group s.chain :: s.frames, chain := .empty } limit
      s.frames.length .operand with hdeep | ⟨hdepth, heq⟩
    · exact .inl hdeep
    · have hframes : FramesValid limit (.group s.chain :: s.frames) := ⟨h.chain, h.frames⟩
      rw [heq]
      exact .inr ⟨⟨hframes, Chain.valid_empty _ _, hdepth, trivial, by simp⟩, List.append_nil _⟩
  | field path =>
    cases hread
    refine .inr ⟨h.withMode (FieldPath.isProper_ofDotted path) (by simp), ?_⟩
    change _ ++ [TokenKind.field (FieldPath.ofDotted path).dotted] = _
    rw [FieldPath.dotted_ofDotted]
  | _ => cases hread

/-- A token that is an operator by itself spells it, and the operator takes a literal. -/
theorem render_of_operator {kind : TokenKind} {op : CompareOp}
    (h : CompareOp.ofToken? kind = some op) : op.render = [kind] ∧ op ≠ .present := by
  cases kind with
  | equal | notEqual | greater | greaterEqual | less | lessEqual | pattern | member =>
    cases h
    exact ⟨rfl, by decide⟩
  | _ => cases h

/-- The state after an operator waits for the literal. -/
theorem literal_valid {limit : Nat} {s : State} {field : FieldPath} {start : Nat} {op : CompareOp}
    (h : s.Valid limit) (hfield : field.isProper) (hop : op ≠ .present) :
    ({ s with mode := .literal ⟨field, start, op⟩ [] } : State).Valid limit :=
  h.withMode ⟨⟨hfield, hop⟩, h.depth⟩ (by simp)

theorem isCanonical_present {field : FieldPath} (hfield : field.isProper) (b : Bool)
    (span : Span) : (⟨field, .present, .boolean b, span⟩ : Comparison).isCanonical := by
  simpa [Comparison.isCanonical] using hfield

theorem readOperator?_advances {limit : Nat} {s next : State} {token : Token} {field : FieldPath}
    {start : Nat} (h : s.Valid limit) (hfield : field.isProper)
    (hword : s.word = framesLead s.frames s.chain.lead ++ [.field field.dotted])
    (hread : s.readOperator? token field start = some next) :
    Advances limit s token.kind next := by
  obtain ⟨kind, span⟩ := token
  rw [Advances, hword]
  by_cases hnot : kind = .not
  · subst hnot
    cases hread
    refine .inr ⟨h.withMode hfield (by simp), ?_⟩
    rw [List.append_assoc]
    rfl
  by_cases hpresent : kind = .present
  · subst hpresent
    cases hread
    obtain ⟨hvalid, hnext⟩ := compare_valid ⟨field, start, .present⟩ h
      (isCanonical_present hfield true _) h.depth
    refine .inr ⟨hvalid, ?_⟩
    rw [hnext, List.append_assoc]
    rfl
  · have hsome : (CompareOp.ofToken? kind).map
        (fun op => ({ s with mode := .literal ⟨field, start, op⟩ [] } : State)) = some next := by
      rw [← hread]
      cases kind with
      | not => exact absurd rfl hnot
      | present => exact absurd rfl hpresent
      | _ => rfl
    obtain ⟨op, hop, rfl⟩ := Option.map_eq_some_iff.mp hsome
    obtain ⟨hrender, hne⟩ := render_of_operator hop
    refine .inr ⟨literal_valid h hfield hne, ?_⟩
    change framesLead s.frames s.chain.lead ++ ((.field field.dotted :: op.render) ++ []) = _
    rw [hrender, List.append_nil, List.append_assoc]
    rfl

theorem readNegated?_advances {limit : Nat} {s next : State} {token : Token} {field : FieldPath}
    {start : Nat} (h : s.Valid limit) (hfield : field.isProper)
    (hword : s.word = framesLead s.frames s.chain.lead ++ [.field field.dotted, .not])
    (hread : s.readNegated? token field start = some next) :
    Advances limit s token.kind next := by
  obtain ⟨kind, span⟩ := token
  rw [Advances, hword, List.append_assoc]
  cases kind with
  | member =>
    cases hread
    exact .inr ⟨literal_valid h hfield (by decide), rfl⟩
  | present =>
    cases hread
    exact .inr (compare_valid ⟨field, start, .present⟩ h
      (isCanonical_present hfield false _) h.depth)
  | _ => cases hread

theorem readChain?_advances {limit : Nat} {s next : State} {token : Token} (h : s.Valid limit)
    (hmode : s.mode = .afterOperand) (hread : s.readChain? token = some next) :
    Advances limit s token.kind next := by
  obtain ⟨kind, span⟩ := token
  obtain ⟨frames, chain, mode⟩ := s
  obtain ⟨hne, hdepth⟩ := h.settled hmode
  subst hmode
  refine .inr ?_
  change next.Valid limit ∧ next.word = framesLead frames chain.close.render ++ [kind]
  -- The word of the chain ends the word of the state, as no negation stands on top.
  have hlead : ∀ word kinds,
      framesLead frames (word ++ kinds) = framesLead frames word ++ kinds := by
    intro word kinds
    rcases frames_cases hdepth with rfl | ⟨outer, rest, rfl⟩
    · rfl
    · simp [framesLead]
  cases kind with
  | and =>
    cases hread
    refine ⟨h.withMode trivial (by simp), ?_⟩
    change framesLead frames chain.lead ++ [] = _
    rw [List.append_nil, chain.lead_of_ne_nil hne, hlead]
  | or =>
    cases hread
    have hvalid := h.chain.split hne (hdepth ▸ h.depth)
    refine ⟨⟨h.frames, hvalid, h.depth, trivial, by simp⟩, ?_⟩
    change framesLead frames chain.split.lead ++ [] = _
    rw [List.append_nil, chain.lead_split, hlead]
  | rightParen =>
    rcases frames_cases hdepth with rfl | ⟨outer, frames, rfl⟩
    · cases hread
    · cases hread
      obtain ⟨hcan, hnest⟩ := h.chain.close hne (hdepth ▸ h.depth)
      have hfit : frames.length + (Query.group chain.close).nesting ≤ limit := by
        have hlevel : frames.length + 1 + chain.close.nesting ≤ limit := hnest
        rw [nesting]
        omega
      obtain ⟨hvalid, hword⟩ := settle_valid (q := .group chain.close) h.frames.2 h.frames.1 hcan
        rfl hfit
      refine ⟨hvalid, ?_⟩
      rw [hword, render, framesLead]
      simp only [List.append_assoc, List.cons_append]
  | _ => cases hread

theorem readSeparator?_advances {limit : Nat} {s next : State} {token : Token} {pending : Pending}
    {items : List Literal} {outer : List (List Literal)} (h : s.Valid limit)
    (hpending : pending.Valid) (harrays : ArraysValid limit s.frames.length (items :: outer))
    (hword : s.word = framesLead s.frames s.chain.lead ++ (pending.render ++ arraysLead outer ++
      .leftBracket :: [.comma].intercalate (items.reverse.map Literal.render)))
    (hne : items ≠ []) (hread : s.readSeparator? token pending items outer = some next) :
    Advances limit s token.kind next := by
  obtain ⟨kind, span⟩ := token
  obtain ⟨hroom, hitems, houter⟩ := harrays
  refine .inr ?_
  rw [hword]
  cases kind with
  | comma =>
    cases hread
    refine ⟨h.withMode ⟨hpending, hroom, hitems, houter⟩ (by simp), ?_⟩
    change framesLead s.frames s.chain.lead ++ (pending.render ++ arraysLead (items :: outer)) = _
    obtain ⟨last, rest, rfl⟩ := List.exists_cons_of_ne_nil hne
    rw [arraysLead, List.reverse_cons, List.map_append, List.map_singleton, intercalate_concat,
      List.flatMap_map, List.flatMap_append]
    simp
  | rightBracket =>
    cases hread
    have hnest : (Literal.array items.reverse).nesting ≤
        limit - (s.frames.length + (outer.length + 1)) + 1 := by
      refine Literal.nesting_array_le_iff.mpr ?_
      intro v hv
      have := hitems v (List.mem_reverse.mp hv)
      omega
    have hfit : s.frames.length + outer.length + (Literal.array items.reverse).nesting ≤ limit := by
      omega
    obtain ⟨hvalid, hnext⟩ := deliver_valid span.stop h hpending houter hfit
    refine ⟨hvalid, ?_⟩
    rw [hnext, Literal.render_array]
    simp only [List.append_assoc, List.cons_append]
  | _ => cases hread

theorem next?_firstItem_of_eq {limit : Nat} {frames : List Frame} {chain : Chain}
    {pending : Pending} {outer : List (List Literal)} {token : Token}
    (h : token.kind = .rightBracket) :
    (⟨frames, chain, .firstItem pending outer⟩ : State).next? limit token =
      some ((⟨frames, chain, .firstItem pending outer⟩ : State).deliver pending (.array [])
        token.span.stop outer) :=
  if_pos h

theorem next?_firstItem_of_ne {limit : Nat} {frames : List Frame} {chain : Chain}
    {pending : Pending} {outer : List (List Literal)} {token : Token}
    (h : token.kind ≠ .rightBracket) :
    (⟨frames, chain, .firstItem pending outer⟩ : State).next? limit token =
      (⟨frames, chain, .firstItem pending outer⟩ : State).readLiteral? limit token pending
        ([] :: outer) :=
  if_neg h

/-- **One token** extends the word of a valid state and leads to a valid one, unless it opens one
level too many. -/
theorem next?_advances {limit : Nat} {s next : State} {token : Token} (h : s.Valid limit)
    (hnext : s.next? limit token = some next) : Advances limit s token.kind next := by
  obtain ⟨frames, chain, mode⟩ := s
  cases mode with
  | start | operand => exact readOperand?_advances h (List.append_nil _) hnext
  | operator field start => exact readOperator?_advances h h.mode rfl hnext
  | negatedOperator field start => exact readNegated?_advances h h.mode rfl hnext
  | literal pending arrays => exact readLiteral?_advances h h.mode.1 h.mode.2 hnext
  | firstItem pending outer =>
    obtain ⟨hpending, harrays⟩ := h.mode
    have hlead : pending.render ++ arraysLead ([] :: outer) =
        pending.render ++ arraysLead outer ++ [.leftBracket] := by simp [arraysLead]
    by_cases hclose : token.kind = .rightBracket
    · rw [next?_firstItem_of_eq hclose, Option.some.injEq] at hnext
      subst hnext
      have hfit : frames.length + outer.length + (Literal.array []).nesting ≤ limit := harrays.1
      obtain ⟨hvalid, hword⟩ := deliver_valid token.span.stop h hpending harrays.2.2 hfit
      refine .inr ⟨hvalid, ?_⟩
      rw [hword, hclose]
      simp [word, Mode.word, Literal.render]
    · rw [next?_firstItem_of_ne hclose] at hnext
      have hstep := readLiteral?_advances h hpending harrays hnext
      rwa [hlead] at hstep
  | afterItem pending items outer =>
    exact readSeparator?_advances h h.mode.1 h.mode.2.2 rfl h.mode.2.1 hnext
  | afterOperand => exact readChain?_advances h rfl hnext
  | tooDeep => cases hnext

/-! ### Runs keep the invariant -/

theorem valid_initial (limit : Nat) : initial.Valid limit :=
  ⟨trivial, Chain.valid_empty _ _, Nat.zero_le limit, trivial, fun hmode => by cases hmode⟩

/-- No token is allowed once one level too many is open. -/
theorem mode_of_feed?_tooDeep {limit : Nat} {s last : State} {tokens : List Token}
    (hdeep : s.mode = .tooDeep) (hfeed : s.feed? limit tokens = some last) :
    last.mode = .tooDeep := by
  cases tokens with
  | nil =>
    cases hfeed
    exact hdeep
  | cons token tokens =>
    rw [feed?, next?, hdeep] at hfeed
    cases hfeed

/-- **Several tokens** extend the word of a valid state and lead to a valid one, unless the last of
them opens one level too many. -/
theorem feed?_advances {limit : Nat} {s last : State} {tokens : List Token} (h : s.Valid limit)
    (hfeed : s.feed? limit tokens = some last) (hlast : last.mode ≠ .tooDeep) :
    last.Valid limit ∧ last.word = s.word ++ tokens.map Token.kind := by
  induction tokens generalizing s with
  | nil =>
    cases hfeed
    exact ⟨h, (List.append_nil _).symm⟩
  | cons token tokens ih =>
    obtain ⟨next, hnext, hrest⟩ := Option.bind_eq_some_iff.mp hfeed
    rcases next?_advances h hnext with hdeep | ⟨hvalid, hword⟩
    · exact absurd (mode_of_feed?_tooDeep hdeep hrest) hlast
    · obtain ⟨hvalid', hword'⟩ := ih hvalid hrest
      refine ⟨hvalid', ?_⟩
      rw [hword', hword, List.map_cons, List.append_assoc, List.singleton_append]

/-- **Soundness.** Tokens that lead from the start to a state in which nothing is open spell the
tree of that state. -/
theorem spells_of_feed? {limit : Nat} {last : State} {tokens : List Token}
    (hfeed : initial.feed? limit tokens = some last) (hmode : last.mode = .afterOperand)
    (hframes : last.frames = []) : Spells limit (tokens.map Token.kind) last.chain.close := by
  obtain ⟨hvalid, hword⟩ := feed?_advances (valid_initial limit) hfeed (by simp [hmode])
  have hdepth : chainDepth last.frames = 0 := by rw [hframes]; rfl
  obtain ⟨hcan, hnest⟩ := hvalid.chain.close (hvalid.settled hmode).1 (by omega)
  refine ⟨hcan, ?_, by omega⟩
  rw [word, hmode, hframes] at hword
  exact hword

end State

end Query

end QueryFilter
