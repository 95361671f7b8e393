import QueryFilter.Proofs.Query.Soundness

/-!
# A query inside another one

The parser reads the tokens of a query alike wherever an operand can stand: after other operands of
`OR`, inside groups, inside negations. At every token it knows what it would know of the query by
itself, with the frames around the query below its own, and with the operands before the query in
the outermost chain. Each level around the query takes one of the levels that the limit allows.

The converse fails: a parenthesis that closes nothing in the query closes a group around it. So the
statements are about tokens that a query by itself allows. They also need that the query is no
direct operand of `NOT`, since a negation ends with the first operand of a chain.

## Main definitions

* `Query.State.within` — what the parser knows in the middle of a query inside another one
* `Query.Reads` — the tokens of a query, and the chain that they make

## Main results

* `Query.State.next?_within`, `Query.State.feed?_within` — tokens of a query inside another one
* `Query.Reads.within` — a whole query inside another one
* `Query.Reads.or`, `Query.Reads.and`, `Query.Reads.not` — queries put together
-/

namespace QueryFilter

namespace Query

/-! ### States -/

/-- A chain inside the given frames. If it is the outermost one, it goes on after the operands
`before` of `OR`, which have the newest first. -/
def Chain.after (before : List Query) (chain : Chain) : List Frame → Chain
  | [] => ⟨chain.disjuncts ++ before, chain.conjuncts⟩
  | .negation :: frames => chain.after before frames
  | .group _ :: _ => chain

/-- Frames inside those of `outer`, where the outermost chain goes on after `before`. -/
def framesWithin (before : List Query) (outer : List Frame) : List Frame → List Frame
  | [] => outer
  | .negation :: frames => .negation :: framesWithin before outer frames
  | .group chain :: frames => .group (chain.after before frames) :: framesWithin before outer frames

theorem length_framesWithin (before : List Query) (outer frames : List Frame) :
    (framesWithin before outer frames).length = frames.length + outer.length := by
  induction frames with
  | nil => exact (Nat.zero_add _).symm
  | cons frame frames ih =>
    cases frame with
    | negation | group _ => rw [framesWithin, List.length_cons, ih, List.length_cons]; omega

theorem Chain.after_split (before : List Query) (chain : Chain) (frames : List Frame) :
    chain.split.after before frames = (chain.after before frames).split := by
  induction frames with
  | nil => rfl
  | cons frame frames ih =>
    cases frame with
    | negation => exact ih
    | group _ => rfl

namespace State

/-- What the parser knows in the middle of a query that stands inside the frames of `outer`, after
the operands `before` of `OR`. -/
def within (before : List Query) (outer : List Frame) (s : State) : State :=
  ⟨framesWithin before outer s.frames, s.chain.after before s.frames, s.mode⟩

variable (before : List Query) {outer : List Frame} {limit : Nat}

theorem deepen_within (s : State) (depth : Nat) (mode : Mode) :
    (s.deepen limit depth mode).within before outer =
      (s.within before outer).deepen (limit + outer.length) (depth + outer.length) mode := by
  simp only [deepen, Nat.add_lt_add_iff_right]
  rfl

theorem settle_within (houter : chainDepth outer = outer.length) (chain : Chain) (q : Query)
    (frames : List Frame) :
    (settle chain q frames).within before outer =
      settle (chain.after before frames) q (framesWithin before outer frames) := by
  induction frames generalizing q with
  | nil => exact (settle_of_chainDepth houter (chain.after before []) q).symm
  | cons frame frames ih =>
    cases frame with
    | negation => exact ih (.not q)
    | group _ => rfl

/-! ### Moves -/

/-- A move inside another query leads to the same as by itself. -/
theorem make?_within (houter : chainDepth outer = outer.length) {s next : State} {move : Move}
    (h : s.make? limit move = some next) :
    (s.within before outer).make? (limit + outer.length) move =
      some (next.within before outer) := by
  have hlength : (s.within before outer).frames.length = s.frames.length + outer.length :=
    length_framesWithin before outer s.frames
  cases move with
  | wait mode =>
    cases h
    rfl
  | openArray pending arrays =>
    cases h
    rw [make?, hlength, deepen_within, Nat.add_right_comm]
  | openNegation | openGroup =>
    cases h
    rw [make?, hlength, deepen_within]
    rfl
  | compare c =>
    cases h
    exact congrArg some (settle_within before houter s.chain (.comparison c) s.frames).symm
  | endDisjunct =>
    cases h
    simp only [make?, within, Chain.after_split]
  | closeGroup =>
    -- the group that ends was opened by the query itself
    obtain ⟨frames, chain, mode⟩ := s
    rcases frames with _ | ⟨_ | inner, frames⟩
    · cases h
    · cases h
    · cases h
      exact congrArg some (settle_within before houter inner (.group chain.close) frames).symm

/-- **One token** of a query inside another one is read as in the query by itself. -/
theorem next?_within (houter : chainDepth outer = outer.length) {s next : State} {token : Token}
    (h : s.next? limit token = some next) :
    (s.within before outer).next? (limit + outer.length) token =
      some (next.within before outer) := by
  rw [next?_eq_move, Option.bind_eq_some_iff] at h ⊢
  obtain ⟨move, hmove, hnext⟩ := h
  exact ⟨move, hmove, make?_within before houter hnext⟩

/-! ### Runs -/

theorem feed?_within (houter : chainDepth outer = outer.length) {s last : State}
    {tokens : List Token} (h : s.feed? limit tokens = some last) :
    (s.within before outer).feed? (limit + outer.length) tokens =
      some (last.within before outer) := by
  induction tokens generalizing s with
  | nil =>
    cases h
    rfl
  | cons token tokens ih =>
    rw [feed?, Option.bind_eq_some_iff] at h ⊢
    obtain ⟨next, hnext, hlast⟩ := h
    exact ⟨next.within before outer, next?_within before houter hnext, ih hlast⟩

/-- The parser goes through tokens in other places alike. -/
theorem feed?_relocate (g : Nat → Nat) (s : State) (tokens : List Token) :
    (s.relocate g).feed? limit (tokens.map (Token.relocate g)) =
      (s.feed? limit tokens).map (relocate g) := by
  induction tokens generalizing s with
  | nil => rfl
  | cons token tokens ih =>
    rw [List.map_cons, feed?, feed?, next?_relocate, Option.bind_map, Option.map_bind]
    congr 1
    funext next
    exact ih next

end State

/-! ### Whole queries -/

/-- The tokens of a query, read up to the end of the last operand. -/
def Reads (limit : Nat) (tokens : List Token) (chain : Chain) : Prop :=
  State.initial.feed? limit tokens = some ⟨[], chain, .afterOperand⟩

namespace Reads

variable {limit : Nat} {tokens more : List Token} {chain inner : Chain}

theorem relocate (h : Reads limit tokens chain) (g : Nat → Nat) :
    Reads limit (tokens.map (Token.relocate g)) (chain.relocate g) :=
  (State.feed?_relocate g .initial tokens).trans (congrArg (Option.map _) h)

/-- **A whole query inside another one** adds its operands of `OR` to those before it. -/
theorem within (h : Reads limit tokens chain) (before : List Query) (outer : List Frame)
    (houter : chainDepth outer = outer.length) :
    State.feed? (limit + outer.length) ⟨outer, ⟨before, []⟩, .operand⟩ tokens =
      some ⟨outer, ⟨chain.disjuncts ++ before, chain.conjuncts⟩, .afterOperand⟩ := by
  have hwithin := State.feed?_within before houter h
  cases tokens with
  | nil => cases h
  -- the first token of a query and that of an operand are read alike
  | cons token tokens => exact hwithin

/-- **A query in parentheses is an operand.** It takes one level more than the query. -/
theorem group (h : Reads limit tokens inner) (frames : List Frame) (chain : Chain)
    (opening closing : Span) :
    State.feed? (limit + frames.length + 1) ⟨frames, chain, .operand⟩
        (⟨.leftParen, opening⟩ :: tokens ++ [⟨.rightParen, closing⟩]) =
      some (State.settle chain (.group inner.close) frames) := by
  have hopen : State.next? (limit + frames.length + 1) ⟨frames, chain, .operand⟩
      ⟨.leftParen, opening⟩ = some ⟨.group chain :: frames, ⟨[], []⟩, .operand⟩ :=
    congrArg some (State.deepen_of_lt (Nat.lt_succ_of_le (Nat.le_add_left _ _)))
  have hinner := h.within [] (.group chain :: frames) rfl
  rw [List.append_nil, List.length_cons, ← Nat.add_assoc] at hinner
  rw [List.cons_append, State.feed?, hopen, Option.bind_some, State.feed?_append, hinner]
  rfl

/-- Two queries with `OR` between them. -/
theorem or (h : Reads limit tokens chain) (hmore : Reads limit more inner) (span : Span) :
    Reads limit (tokens ++ ⟨.or, span⟩ :: more)
      ⟨inner.disjuncts ++ chain.split.disjuncts, inner.conjuncts⟩ := by
  rw [Reads, State.feed?_append, h, Option.bind_some]
  exact hmore.within chain.split.disjuncts [] rfl

/-- Two queries in parentheses with `AND` between them. -/
theorem and (h : Reads limit tokens chain) (hmore : Reads limit more inner)
    (opening closing opening' closing' span : Span) :
    Reads (limit + 1) (⟨.leftParen, opening⟩ :: tokens ++ ⟨.rightParen, closing⟩ :: ⟨.and, span⟩ ::
        (⟨.leftParen, opening'⟩ :: more ++ [⟨.rightParen, closing'⟩]))
      ⟨[], [.group inner.close, .group chain.close]⟩ := by
  have hfirst : State.initial.feed? (limit + 1)
      (⟨.leftParen, opening⟩ :: tokens ++ [⟨.rightParen, closing⟩]) =
        some ⟨[], ⟨[], [.group chain.close]⟩, .afterOperand⟩ := h.group [] .empty opening closing
  rw [Reads, List.append_cons, State.feed?_append, hfirst, Option.bind_some]
  exact hmore.group [] ⟨[], [.group chain.close]⟩ opening' closing'

/-- A query in parentheses after `NOT`. -/
theorem not (h : Reads limit tokens chain) (opening closing span : Span) :
    Reads (limit + 2) (⟨.not, span⟩ :: (⟨.leftParen, opening⟩ :: tokens ++
      [⟨.rightParen, closing⟩])) ⟨[], [.not (.group chain.close)]⟩ := by
  have hnot : State.initial.next? (limit + 2) ⟨.not, span⟩ =
      some ⟨[.negation], .empty, .operand⟩ :=
    congrArg some (State.deepen_of_lt (Nat.succ_pos _))
  rw [Reads, State.feed?, hnot, Option.bind_some]
  exact h.group [.negation] .empty opening closing

end Reads

end Query

end QueryFilter
