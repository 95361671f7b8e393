import QueryFilter.Query.Basic
import QueryFilter.Query.Error

/-!
# Reading a query from tokens

The grammar has three levels of precedence, `OR` below `AND` below `NOT`:

```
disjunction := conjunction (OR conjunction)*
conjunction := operand (AND operand)*
operand     := NOT operand | '(' disjunction ')' | comparison
comparison  := field EXISTS | field NOT EXISTS | field op literal | field NOT IN literal
literal     := scalar | '[' ']' | '[' literal (',' literal)* ']'
```

The parser reads it one token at a time, from left to right, with a state that holds what is open:
the chains and negations around the current operand, and within a comparison the arrays around the
current literal. So it is a plain recursion on the tokens, and an error never depends on anything
after the token it names.

Each negation, group and array that is open counts one level of nesting. One level too many is an
error at the next token, whatever that is.

## Main definitions

* `Query.Chain`, `Query.Frame` — an unfinished chain of operands, and what is open around it
* `Query.Mode`, `Query.State` — what the parser waits for, and all it knows
* `Query.State.step`, `Query.State.finish` — the effect of a token, and of the end of input
* `Query.ofTokens` — the query of a sequence of tokens
-/

namespace QueryFilter

namespace Query

/-! ### States -/

/-- A chain whose last operand is still to come: the finished operands of `OR`, and the operands
of `AND` read since; both with the newest first. -/
structure Chain where
  disjuncts : List Query
  conjuncts : List Query

namespace Chain

/-- The chain before its first operand. -/
def empty : Chain := ⟨[], []⟩

/-- One more operand of `AND`. -/
def add (chain : Chain) (q : Query) : Chain := { chain with conjuncts := q :: chain.conjuncts }

/-- Ends the operands of `AND`: together they are one operand of `OR`. -/
def split (chain : Chain) : Chain :=
  ⟨conjunction chain.conjuncts.reverse :: chain.disjuncts, []⟩

/-- The query of a finished chain. -/
def close (chain : Chain) : Query := disjunction chain.split.disjuncts.reverse

end Chain

/-- Something that waits for an operand to end. -/
inductive Frame where
  /-- A `NOT` before the operand. -/
  | negation
  /-- A parenthesis before the chain of the operand; `outer` is the chain in which it stands. -/
  | group (outer : Chain)

/-- A comparison whose literal is still to come. -/
structure Pending where
  field : FieldPath
  start : Nat
  op : CompareOp

/-- What the parser waits for. -/
inductive Mode where
  /-- The first token. -/
  | start
  /-- An operand of a chain or of `NOT`. -/
  | operand
  /-- The operator after a field that starts at `start`. -/
  | operator (field : FieldPath) (start : Nat)
  /-- What follows `NOT` after a field. -/
  | negatedOperator (field : FieldPath) (start : Nat)
  /-- A literal inside the arrays that are open, innermost first and each with its newest item
  first. -/
  | literal (pending : Pending) (arrays : List (List Literal))
  /-- The first item of an array, or its end. -/
  | firstItem (pending : Pending) (outer : List (List Literal))
  /-- A comma or the end of the array that holds `items`. -/
  | afterItem (pending : Pending) (items : List Literal) (outer : List (List Literal))
  /-- The continuation of a chain, or its end. -/
  | afterOperand
  /-- Nothing: the last token opened one level too many. -/
  | tooDeep

/-- All that the parser knows of the tokens read so far. -/
structure State where
  frames : List Frame
  chain : Chain
  mode : Mode

namespace State

/-- The state before the first token. -/
def initial : State := ⟨[], .empty, .start⟩

/-! ### Moves -/

/-- A finished operand closes the negations that wait for it and joins the chain. -/
def settle (chain : Chain) (q : Query) : List Frame → State
  | .negation :: frames => settle chain (.not q) frames
  | frames => ⟨frames, chain.add q, .afterOperand⟩

/-- A finished comparison, whose last token ends at `stop`. -/
def compare (s : State) (pending : Pending) (value : Literal) (stop : Nat) : State :=
  settle s.chain (.comparison ⟨pending.field, pending.op, value, ⟨pending.start, stop⟩⟩) s.frames

/-- A finished literal, whose last token ends at `stop`: an item of the innermost array, or the
value of the comparison. -/
def deliver (s : State) (pending : Pending) (value : Literal) (stop : Nat) :
    List (List Literal) → State
  | [] => s.compare pending value stop
  | items :: outer => { s with mode := .afterItem pending (value :: items) outer }

/-- Opens one level with `depth` of them open already. -/
def deepen (s : State) (limit depth : Nat) (mode : Mode) : State :=
  { s with mode := if depth < limit then mode else .tooDeep }

/-- The state after a token that starts or continues a literal, if it does. -/
def readLiteral? (limit : Nat) (s : State) (token : Token) (pending : Pending)
    (arrays : List (List Literal)) : Option State :=
  match token.kind with
  | .leftBracket =>
    some (s.deepen limit (s.frames.length + arrays.length) (.firstItem pending arrays))
  | _ => (Literal.ofToken? token).map fun value => s.deliver pending value token.span.stop arrays

/-- The state after a token that starts an operand, if it does. -/
def readOperand? (limit : Nat) (s : State) (token : Token) : Option State :=
  match token.kind with
  | .not =>
    some ({ s with frames := .negation :: s.frames }.deepen limit s.frames.length .operand)
  | .leftParen =>
    some ({ s with frames := .group s.chain :: s.frames, chain := .empty }.deepen limit
      s.frames.length .operand)
  | .field path => some { s with mode := .operator (.ofDotted path) token.span.start }
  | _ => none

/-- The state after the operator of a comparison, if the token is one. -/
def readOperator? (s : State) (token : Token) (field : FieldPath) (start : Nat) : Option State :=
  match token.kind with
  | .not => some { s with mode := .negatedOperator field start }
  | .present => some (s.compare ⟨field, start, .present⟩ (.boolean true) token.span.stop)
  | kind => (CompareOp.ofToken? kind).map fun op =>
    { s with mode := .literal ⟨field, start, op⟩ [] }

/-- The state after the rest of an operator that starts with `NOT`, if the token is that. -/
def readNegated? (s : State) (token : Token) (field : FieldPath) (start : Nat) : Option State :=
  match token.kind with
  | .member => some { s with mode := .literal ⟨field, start, .notMember⟩ [] }
  | .present => some (s.compare ⟨field, start, .present⟩ (.boolean false) token.span.stop)
  | _ => none

/-- The state after a token that continues or ends a chain, if it does. -/
def readChain? (s : State) (token : Token) : Option State :=
  match token.kind, s.frames with
  | .and, _ => some { s with mode := .operand }
  | .or, _ => some { s with chain := s.chain.split, mode := .operand }
  | .rightParen, .group outer :: frames => some (settle outer (.group s.chain.close) frames)
  | _, _ => none

/-- The state after the token that follows an item of an array, if it is allowed. -/
def readSeparator? (s : State) (token : Token) (pending : Pending) (items : List Literal)
    (outer : List (List Literal)) : Option State :=
  match token.kind with
  | .comma => some { s with mode := .literal pending (items :: outer) }
  | .rightBracket => some (s.deliver pending (.array items.reverse) token.span.stop outer)
  | _ => none

/-- The state after a token, if the grammar allows it. -/
def next? (limit : Nat) (s : State) (token : Token) : Option State :=
  match s.mode with
  | .start | .operand => s.readOperand? limit token
  | .operator field start => s.readOperator? token field start
  | .negatedOperator field start => s.readNegated? token field start
  | .literal pending arrays => s.readLiteral? limit token pending arrays
  | .firstItem pending outer =>
    if token.kind = .rightBracket then some (s.deliver pending (.array []) token.span.stop outer)
    else s.readLiteral? limit token pending ([] :: outer)
  | .afterItem pending items outer => s.readSeparator? token pending items outer
  | .afterOperand => s.readChain? token
  | .tooDeep => none

/-- What the grammar expects, given whether the input ends here. -/
def expected (s : State) (atEnd : Bool) : String :=
  match s.mode with
  | .start => if atEnd then "expression" else "field name, `NOT` or `(`"
  | .operand => "field name, `NOT` or `(`"
  | .operator _ _ => "comparison operator"
  | .negatedOperator _ _ => "`IN` or `EXISTS` after `NOT`"
  | .literal _ _ | .firstItem _ _ => "literal value"
  | .afterItem _ _ _ => "`,` or `]`"
  | .afterOperand | .tooDeep =>
    if s.frames.isEmpty then "`AND`, `OR` or end of input" else "`)`"

/-- The error of a state at a token that it does not allow. -/
def refuse (limit : Nat) (s : State) (token : Token) : SyntaxError :=
  match s.mode with
  | .tooDeep => .tooDeep token.span limit
  | _ => .unexpected token.span (s.expected (token.kind = .endOfInput)) token.kind.describe

/-- The effect of a token. -/
def step (limit : Nat) (s : State) (token : Token) : Except SyntaxError State :=
  match s.next? limit token with
  | some s => .ok s
  | none => .error (s.refuse limit token)

/-- The query that is complete at the end of input, given as a token. -/
def finish (limit : Nat) (s : State) (token : Token) : Except SyntaxError Query :=
  match s.mode, s.frames with
  | .afterOperand, [] => .ok s.chain.close
  | _, _ => .error (s.refuse limit token)

/-- Reads the tokens that are left. If the end of input is not among them, it stands at `stop`,
where the last token ends; what follows it is not read. -/
def run (limit : Nat) (s : State) (stop : Nat) : List Token → Except SyntaxError Query
  | [] => s.finish limit ⟨.endOfInput, .point stop⟩
  | token :: tokens =>
    if token.kind = .endOfInput then s.finish limit token
    else match s.step limit token with
      | .error e => .error e
      | .ok s => s.run limit token.span.stop tokens

end State

/-- The query of a sequence of tokens, with at most `limit` levels of nesting. -/
def ofTokens (limit : Nat) (tokens : List Token) : Except SyntaxError Query :=
  State.initial.run limit 0 tokens

end Query

end QueryFilter
