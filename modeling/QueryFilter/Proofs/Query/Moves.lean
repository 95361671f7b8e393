import QueryFilter.Query.Parser

/-!
# What a token does

What the parser waits for and the next token decide on a *move*; what is open around the current
operand decides what the move leads to. Only a move that ends or opens something touches the chains
and frames, and there are few of these. So a fact about all states is proved in two parts that know
nothing of each other: which moves there are, and what each of them does.

## Main definitions

* `Query.Move` — what a token can do
* `Query.Mode.move?` — the move of a token, given what the parser waits for
* `Query.State.make?` — the state after a move

## Main results

* `Query.State.mode_of_make?` — what the parser waits for after a move
* `Query.State.next?_eq_move` — reading a token is to find its move and to make it
-/

namespace QueryFilter

namespace Query

/-- What a token can do. -/
inductive Move where
  /-- Nothing ends, and no level is opened. -/
  | wait (mode : Mode)
  /-- Opens an array inside those that are open. -/
  | openArray (pending : Pending) (arrays : List (List Literal))
  /-- Opens a negation. -/
  | openNegation
  /-- Opens a group. -/
  | openGroup
  /-- Ends a comparison. -/
  | compare (c : Comparison)
  /-- Ends an operand of `OR`. -/
  | endDisjunct
  /-- Ends a group. -/
  | closeGroup

namespace Move

/-- A literal that ends is an item of the innermost array, or the value of the comparison. -/
def deliver (pending : Pending) (value : Literal) (stop : Nat) : List (List Literal) → Move
  | [] => compare ⟨pending.field, pending.op, value, ⟨pending.start, stop⟩⟩
  | items :: outer => wait (.afterItem pending (value :: items) outer)

/-- The move of a token that starts a literal or is one. -/
def ofLiteral? (token : Token) (pending : Pending) (arrays : List (List Literal)) : Option Move :=
  match token.kind with
  | .leftBracket => some (openArray pending arrays)
  | _ => (Literal.ofToken? token).map fun value => deliver pending value token.span.stop arrays

/-- A token that opens no array is a literal by itself or none. -/
theorem ofLiteral?_of_ne {token : Token} {pending : Pending} {arrays : List (List Literal)}
    (h : token.kind ≠ .leftBracket) :
    ofLiteral? token pending arrays = (Literal.ofToken? token).map fun value =>
      deliver pending value token.span.stop arrays := by
  obtain ⟨kind, span⟩ := token
  cases kind with
  | leftBracket => exact absurd rfl h
  | _ => rfl

/-- What the parser waits for after a move, if that does not open one level too many. -/
def mode : Move → Mode
  | wait mode => mode
  | openArray pending arrays => .firstItem pending arrays
  | openNegation | openGroup | endDisjunct => .operand
  | compare _ | closeGroup => .afterOperand

end Move

/-- The move of a token, given what the parser waits for. -/
def Mode.move? (token : Token) : Mode → Option Move
  | start | operand =>
    match token.kind with
    | .not => some .openNegation
    | .leftParen => some .openGroup
    | .field path => some (.wait (operator (.ofDotted path) token.span.start))
    | _ => none
  | operator field offset =>
    match token.kind with
    | .not => some (.wait (negatedOperator field offset))
    | .present => some (.compare ⟨field, .present, .boolean true, ⟨offset, token.span.stop⟩⟩)
    | kind => (CompareOp.ofToken? kind).map fun op => .wait (literal ⟨field, offset, op⟩ [])
  | negatedOperator field offset =>
    match token.kind with
    | .member => some (.wait (literal ⟨field, offset, .notMember⟩ []))
    | .present => some (.compare ⟨field, .present, .boolean false, ⟨offset, token.span.stop⟩⟩)
    | _ => none
  | literal pending arrays => Move.ofLiteral? token pending arrays
  | firstItem pending outer =>
    if token.kind = .rightBracket then some (.deliver pending (.array []) token.span.stop outer)
    else Move.ofLiteral? token pending ([] :: outer)
  | afterItem pending items outer =>
    match token.kind with
    | .comma => some (.wait (literal pending (items :: outer)))
    | .rightBracket => some (.deliver pending (.array items.reverse) token.span.stop outer)
    | _ => none
  | afterOperand =>
    match token.kind with
    | .and => some (.wait operand)
    | .or => some .endDisjunct
    | .rightParen => some .closeGroup
    | _ => none
  | tooDeep => none

namespace State

/-- The state after a move. Only a group that is open can be closed. -/
def make? (limit : Nat) (s : State) : Move → Option State
  | .wait mode => some { s with mode }
  | .openArray pending arrays =>
    some (s.deepen limit (s.frames.length + arrays.length) (.firstItem pending arrays))
  | .openNegation =>
    some ({ s with frames := .negation :: s.frames }.deepen limit s.frames.length .operand)
  | .openGroup =>
    some ({ s with frames := .group s.chain :: s.frames, chain := .empty }.deepen limit
      s.frames.length .operand)
  | .compare c => some (settle s.chain (.comparison c) s.frames)
  | .endDisjunct => some { s with chain := s.chain.split, mode := .operand }
  | .closeGroup =>
    match s.frames with
    | .group outer :: frames => some (settle outer (.group s.chain.close) frames)
    | _ => none

theorem deepen_of_lt {limit : Nat} {s : State} {depth : Nat} {mode : Mode} (h : depth < limit) :
    s.deepen limit depth mode = { s with mode := mode } := by
  rw [deepen, if_pos h]

theorem mode_deepen (s : State) (limit depth : Nat) (mode : Mode) :
    (s.deepen limit depth mode).mode = .tooDeep ∨ (s.deepen limit depth mode).mode = mode := by
  rw [deepen]
  by_cases h : depth < limit
  · exact .inr (if_pos h)
  · exact .inl (if_neg h)

theorem mode_settle (chain : Chain) (q : Query) (frames : List Frame) :
    (settle chain q frames).mode = .afterOperand := by
  induction frames generalizing q with
  | nil => rfl
  | cons frame frames ih =>
    cases frame with
    | negation => exact ih (.not q)
    | group outer => rfl

/-- What is waited for after a move depends on the move only, but for the limit. -/
theorem mode_of_make? {limit : Nat} {s next : State} {move : Move}
    (h : s.make? limit move = some next) : next.mode = .tooDeep ∨ next.mode = move.mode := by
  cases move with
  | wait mode | endDisjunct =>
    cases h
    exact .inr rfl
  | openArray pending arrays | openNegation | openGroup =>
    cases h
    exact mode_deepen _ limit _ _
  | compare c =>
    cases h
    exact .inr (mode_settle _ _ _)
  | closeGroup =>
    obtain ⟨_ | ⟨_ | outer, frames⟩, chain, mode⟩ := s
    · cases h
    · cases h
    · cases h
      exact .inr (mode_settle _ _ _)

theorem make?_deliver (limit : Nat) (s : State) (pending : Pending) (value : Literal) (stop : Nat)
    (arrays : List (List Literal)) :
    s.make? limit (.deliver pending value stop arrays) =
      some (s.deliver pending value stop arrays) := by
  cases arrays with
  | nil => rfl
  | cons items outer => rfl

/-- A token that opens no array is a literal by itself or none. -/
theorem readLiteral?_of_ne {limit : Nat} {s : State} {token : Token} {pending : Pending}
    {arrays : List (List Literal)} (h : token.kind ≠ .leftBracket) :
    s.readLiteral? limit token pending arrays =
      (Literal.ofToken? token).map fun value => s.deliver pending value token.span.stop arrays := by
  obtain ⟨kind, span⟩ := token
  cases kind with
  | leftBracket => exact absurd rfl h
  | _ => rfl

theorem readLiteral?_eq_move (limit : Nat) (s : State) (token : Token) (pending : Pending)
    (arrays : List (List Literal)) :
    s.readLiteral? limit token pending arrays =
      (Move.ofLiteral? token pending arrays).bind (s.make? limit) := by
  by_cases hkind : token.kind = .leftBracket
  · simp only [readLiteral?, Move.ofLiteral?, hkind, Option.bind_some, make?]
  · rw [readLiteral?_of_ne hkind, Move.ofLiteral?_of_ne hkind, Option.bind_map]
    simp only [Function.comp_def, make?_deliver, Option.map_eq_bind]

/-- **One token** is read by finding its move and making it. -/
theorem next?_eq_move (limit : Nat) (s : State) (token : Token) :
    s.next? limit token = (s.mode.move? token).bind (s.make? limit) := by
  obtain ⟨frames, chain, mode⟩ := s
  obtain ⟨kind, span⟩ := token
  cases mode with
  | literal pending arrays => exact readLiteral?_eq_move limit _ _ pending arrays
  | firstItem pending outer =>
    simp only [next?, Mode.move?]
    split
    · exact (make?_deliver limit _ pending (.array []) span.stop outer).symm
    · exact readLiteral?_eq_move limit _ _ pending ([] :: outer)
  | afterItem pending items outer =>
    cases kind with
    | rightBracket => exact (make?_deliver limit _ pending _ span.stop outer).symm
    | _ => rfl
  | afterOperand =>
    cases kind with
    | rightParen => rcases frames with _ | ⟨_ | outer, frames⟩ <;> rfl
    | _ => rfl
  | tooDeep => rfl
  | start | operand | operator _ _ | negatedOperator _ _ =>
    cases kind with
    | _ => rfl

end State

end Query

end QueryFilter
