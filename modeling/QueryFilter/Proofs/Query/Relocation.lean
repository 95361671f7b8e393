import QueryFilter.Proofs.Query.Grammar
import QueryFilter.Proofs.Query.Moves

/-!
# Tokens in other places

Tokens carry spans, and the tree takes its own spans from them. Nothing else depends on a place: if
every offset of the tokens is changed by a function, so are the offsets in the tree or in the error,
and that is all. The function is arbitrary. It need not keep the order of the tokens, so it can move
all of them behind a text as well as put all of them at the start.

The parser's state holds spans in the literals and comparisons that are finished, and the start of
the comparison that is not. Finding a move and making it both commute with relocating them.

## Main definitions

* `Token.relocate`, `SyntaxError.relocate` — tokens and errors in other places
* `Literal.relocate`, `Query.relocate` — trees in other places
* `Query.State.relocate` — what the parser knows, of tokens in other places

## Main results

* `Query.State.next?_relocate` — one token
* `Query.State.run_relocate` — the tree, or the error, of a sequence of tokens
-/

namespace QueryFilter

variable (g : Nat → Nat)

/-- The span between the new offsets. -/
def Span.relocate (s : Span) : Span := ⟨g s.start, g s.stop⟩

/-- The token in its new place. -/
def Token.relocate (token : Token) : Token := { token with span := token.span.relocate g }

@[simp] theorem Token.kind_relocate (token : Token) : (token.relocate g).kind = token.kind := rfl

/-- The error in its new place. -/
def SyntaxError.relocate : SyntaxError → SyntaxError
  | unexpected span expected found => unexpected (span.relocate g) expected found
  | tooDeep span limit => tooDeep (span.relocate g) limit

/-! ### Trees -/

namespace Literal

mutual

/-- A literal whose tokens are in other places. -/
def relocate : Literal → Literal
  | array items => array (allRelocate items)
  | marker kind raw span => marker kind raw (span.relocate g)
  | string text => string text
  | number n => number n
  | boolean b => boolean b
  | null => null

/-- Literals whose tokens are in other places. -/
def allRelocate : List Literal → List Literal
  | [] => []
  | v :: vs => v.relocate :: allRelocate vs

end

theorem relocate_array (items : List Literal) :
    (array items).relocate g = array (items.map (relocate g)) := by
  have hall : allRelocate g items = items.map (relocate g) := by
    induction items with
    | nil => rfl
    | cons v vs ih => rw [allRelocate, ih, List.map_cons]
  rw [relocate, hall]

theorem ofToken?_relocate (token : Token) :
    ofToken? (token.relocate g) = (ofToken? token).map (relocate g) := by
  obtain ⟨kind, span⟩ := token
  cases kind <;> rfl

end Literal

/-- A comparison whose tokens are in other places. -/
def Comparison.relocate (c : Comparison) : Comparison :=
  { c with value := c.value.relocate g, span := c.span.relocate g }

namespace Query

mutual

/-- A query whose tokens are in other places. -/
def relocate : Query → Query
  | comparison c => comparison (c.relocate g)
  | and operands => and (allRelocate operands)
  | or operands => or (allRelocate operands)
  | not operand => not operand.relocate
  | group content => group content.relocate

/-- Queries whose tokens are in other places. -/
def allRelocate : List Query → List Query
  | [] => []
  | q :: qs => q.relocate :: allRelocate qs

end

theorem allRelocate_eq_map (qs : List Query) : allRelocate g qs = qs.map (relocate g) := by
  induction qs with
  | nil => rfl
  | cons q qs ih => rw [allRelocate, ih, List.map_cons]

theorem relocate_and (operands : List Query) :
    (and operands).relocate g = and (operands.map (relocate g)) := by
  rw [relocate, allRelocate_eq_map]

theorem relocate_or (operands : List Query) :
    (or operands).relocate g = or (operands.map (relocate g)) := by
  rw [relocate, allRelocate_eq_map]

theorem relocate_conjunction (qs : List Query) :
    (conjunction qs).relocate g = conjunction (qs.map (relocate g)) := by
  rcases qs with _ | ⟨q, _ | ⟨r, more⟩⟩
  · rfl
  · rfl
  · exact relocate_and g _

theorem relocate_disjunction (qs : List Query) :
    (disjunction qs).relocate g = disjunction (qs.map (relocate g)) := by
  rcases qs with _ | ⟨q, _ | ⟨r, more⟩⟩
  · rfl
  · rfl
  · exact relocate_or g _

/-! ### What the parser knows -/

/-- A chain of operands whose tokens are in other places. -/
def Chain.relocate (chain : Chain) : Chain :=
  ⟨chain.disjuncts.map (Query.relocate g), chain.conjuncts.map (Query.relocate g)⟩

theorem Chain.relocate_split (chain : Chain) :
    chain.split.relocate g = (chain.relocate g).split := by
  simp only [relocate, split, List.map_cons, List.map_nil, relocate_conjunction, List.map_reverse]

theorem Chain.relocate_close (chain : Chain) :
    chain.close.relocate g = (chain.relocate g).close := by
  rw [close, relocate_disjunction, List.map_reverse, close, ← relocate_split]
  rfl

/-- A frame around tokens that are in other places. -/
def Frame.relocate : Frame → Frame
  | negation => negation
  | group outer => group (outer.relocate g)

/-- A comparison that is not finished and starts in another place. -/
def Pending.relocate (pending : Pending) : Pending := { pending with start := g pending.start }

/-- What the parser waits for after tokens in other places. -/
def Mode.relocate : Mode → Mode
  | start => start
  | operand => operand
  | operator field offset => operator field (g offset)
  | negatedOperator field offset => negatedOperator field (g offset)
  | literal pending arrays => literal (pending.relocate g) (arrays.map (·.map (Literal.relocate g)))
  | firstItem pending outer =>
    firstItem (pending.relocate g) (outer.map (·.map (Literal.relocate g)))
  | afterItem pending items outer =>
    afterItem (pending.relocate g) (items.map (Literal.relocate g))
      (outer.map (·.map (Literal.relocate g)))
  | afterOperand => afterOperand
  | tooDeep => tooDeep

/-- What a token in another place does. -/
def Move.relocate : Move → Move
  | wait mode => wait (mode.relocate g)
  | openArray pending arrays =>
    openArray (pending.relocate g) (arrays.map (·.map (Literal.relocate g)))
  | openNegation => openNegation
  | openGroup => openGroup
  | compare c => compare (c.relocate g)
  | endDisjunct => endDisjunct
  | closeGroup => closeGroup

/-! ### Moves -/

theorem Move.relocate_deliver (pending : Pending) (value : Literal) (stop : Nat)
    (arrays : List (List Literal)) :
    (deliver pending value stop arrays).relocate g =
      deliver (pending.relocate g) (value.relocate g) (g stop)
        (arrays.map (·.map (Literal.relocate g))) := by
  cases arrays with
  | nil => rfl
  | cons items outer => rfl

theorem Move.ofLiteral?_relocate (token : Token) (pending : Pending)
    (arrays : List (List Literal)) :
    ofLiteral? (token.relocate g) (pending.relocate g) (arrays.map (·.map (Literal.relocate g))) =
      (ofLiteral? token pending arrays).map (relocate g) := by
  by_cases hkind : token.kind = .leftBracket
  · simp only [ofLiteral?, Token.kind_relocate, hkind, Option.map_some, relocate]
  · have hkind' : (token.relocate g).kind ≠ .leftBracket := hkind
    rw [ofLiteral?_of_ne hkind, ofLiteral?_of_ne hkind', Literal.ofToken?_relocate,
      Option.map_map, Option.map_map]
    congr 1
    funext value
    exact (relocate_deliver g pending value token.span.stop arrays).symm

/-- The move of a token does not depend on its place. -/
theorem Mode.move?_relocate (mode : Mode) (token : Token) :
    (mode.relocate g).move? (token.relocate g) = (mode.move? token).map (Move.relocate g) := by
  cases mode with
  | literal pending arrays => exact Move.ofLiteral?_relocate g token pending arrays
  | firstItem pending outer =>
    simp only [relocate, move?]
    by_cases hclose : token.kind = .rightBracket
    · have hclose' : (token.relocate g).kind = .rightBracket := hclose
      rw [if_pos hclose, if_pos hclose', Option.map_some, Move.relocate_deliver,
        Literal.relocate_array]
      rfl
    · have hclose' : (token.relocate g).kind ≠ .rightBracket := hclose
      rw [if_neg hclose, if_neg hclose']
      exact Move.ofLiteral?_relocate g token pending ([] :: outer)
  | afterItem pending items outer =>
    obtain ⟨kind, span⟩ := token
    cases kind with
    | rightBracket =>
      simp only [relocate, move?, Token.kind_relocate, Option.map_some, Move.relocate_deliver,
        Literal.relocate_array, List.map_reverse]
      rfl
    | _ => rfl
  | tooDeep => rfl
  | start | operand | operator _ _ | negatedOperator _ _ | afterOperand =>
    obtain ⟨kind, span⟩ := token
    cases kind with
    | _ => rfl

namespace State

/-- What the parser knows after tokens in other places. -/
def relocate (s : State) : State :=
  ⟨s.frames.map (Frame.relocate g), s.chain.relocate g, s.mode.relocate g⟩

theorem settle_relocate (chain : Chain) (q : Query) (frames : List Frame) :
    (settle chain q frames).relocate g =
      settle (chain.relocate g) (q.relocate g) (frames.map (Frame.relocate g)) := by
  induction frames generalizing q with
  | nil => rfl
  | cons frame frames ih =>
    cases frame with
    | negation => exact ih (.not q)
    | group outer => rfl

theorem deepen_relocate (s : State) (limit depth : Nat) (mode : Mode) :
    (s.deepen limit depth mode).relocate g =
      (s.relocate g).deepen limit depth (mode.relocate g) := by
  rw [deepen, deepen]
  split <;> rfl

/-- What a move does does not depend on the place of the token. -/
theorem make?_relocate (limit : Nat) (s : State) (move : Move) :
    (s.relocate g).make? limit (move.relocate g) = (s.make? limit move).map (relocate g) := by
  have hlength : (s.relocate g).frames.length = s.frames.length := List.length_map _
  cases move with
  | wait mode => rfl
  | openArray pending arrays =>
    simp only [Move.relocate, make?, hlength, Option.map_some, deepen_relocate, List.length_map]
    rfl
  | openNegation | openGroup =>
    simp only [Move.relocate, make?, hlength, Option.map_some, deepen_relocate]
    rfl
  | compare c => exact congrArg some (settle_relocate g s.chain (.comparison c) s.frames).symm
  | endDisjunct =>
    simp only [Move.relocate, make?, Option.map_some, relocate, Chain.relocate_split]
    rfl
  | closeGroup =>
    obtain ⟨frames, chain, mode⟩ := s
    rcases frames with _ | ⟨_ | outer, frames⟩
    · rfl
    · rfl
    · simp only [Move.relocate, make?, relocate, List.map_cons, Frame.relocate, Option.map_some,
        ← Chain.relocate_close]
      exact congrArg some (settle_relocate g outer (.group chain.close) frames).symm

/-- **One token.** The parser moves alike wherever the token stands. -/
theorem next?_relocate (limit : Nat) (s : State) (token : Token) :
    (s.relocate g).next? limit (token.relocate g) = (s.next? limit token).map (relocate g) := by
  have hmode : (s.relocate g).mode = s.mode.relocate g := rfl
  rw [next?_eq_move, next?_eq_move, hmode, Mode.move?_relocate, Option.bind_map, Option.map_bind]
  congr 1
  funext move
  exact make?_relocate g limit s move

theorem refuse_relocate (limit : Nat) (s : State) (token : Token) :
    (s.relocate g).refuse limit (token.relocate g) = (s.refuse limit token).relocate g := by
  obtain ⟨frames, chain, mode⟩ := s
  cases mode with
  | afterOperand => cases frames <;> rfl
  | _ => rfl

/-! ### Runs -/

theorem finish_relocate (limit : Nat) (s : State) (token : Token) :
    (s.relocate g).finish limit (token.relocate g) =
      ((s.finish limit token).map (Query.relocate g)).mapError (SyntaxError.relocate g) := by
  have hrefuse := refuse_relocate g limit s token
  obtain ⟨frames, chain, mode⟩ := s
  cases mode with
  | afterOperand =>
    cases frames with
    | nil => exact congrArg Except.ok (Chain.relocate_close g chain).symm
    | cons frame frames => exact congrArg Except.error hrefuse
  | _ => exact congrArg Except.error hrefuse

/-- **A sequence of tokens.** The tree or the error is the same in the new places. -/
theorem run_relocate (limit : Nat) (s : State) (stop : Nat) (tokens : List Token) :
    (s.relocate g).run limit (g stop) (tokens.map (Token.relocate g)) =
      ((s.run limit stop tokens).map (Query.relocate g)).mapError (SyntaxError.relocate g) := by
  induction tokens generalizing s stop with
  | nil => exact finish_relocate g limit s ⟨.endOfInput, .point stop⟩
  | cons token tokens ih =>
    rw [List.map_cons, run, run]
    by_cases hend : token.kind = .endOfInput
    · have hend' : (token.relocate g).kind = .endOfInput := hend
      rw [if_pos hend, if_pos hend']
      exact finish_relocate g limit s token
    · have hend' : (token.relocate g).kind ≠ .endOfInput := hend
      rw [if_neg hend, if_neg hend', step, step, next?_relocate]
      cases hnext : s.next? limit token with
      | none => exact congrArg Except.error (refuse_relocate g limit s token)
      | some next => exact ih next token.span.stop

end State

end Query

end QueryFilter
