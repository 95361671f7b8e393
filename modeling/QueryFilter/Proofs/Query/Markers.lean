import QueryFilter.Filter.Basic
import QueryFilter.Proofs.Query.Spans

/-!
# Typed literals keep their order and their places

A typed literal is one token, and its literal in the tree takes over the span of the token. Spelling
a tree says which tokens there are, but forgets the spans; here the typed literals are followed with
them. From left to right, those of a tree are those of its tokens.

The typed literals of the tokens read so far are found in the parser's state: in the comparisons that
are finished, and in the arrays that are open. A token adds its own to the end of them, if it is one.
In a state that has opened one level too many, nothing is kept of the arrays; it leads to no tree.

## Main definitions

* `Token.marker?` — the marker of a typed literal, with its place
* `Literal.markers`, `Query.markers` — the typed literals of a tree from left to right
* `Query.State.markers` — those that have been read

## Main results

* `Query.Mode.markers_of_move?`, `Query.State.markers_of_make?` — one move
* `Query.State.next?_markers` — one token
* `Query.State.feed?_markers` — several tokens
* `Query.markers_of_ofTokens` — the typed literals of a tree are those of its tokens
-/

namespace QueryFilter

/-- The marker of a typed literal, with its place. -/
def Token.marker? (token : Token) : Option Marker :=
  match token.kind with
  | .marker kind raw => some ⟨kind, raw, some token.span⟩
  | _ => none

/-! ### Trees -/

namespace Literal

mutual

/-- The typed literals of a literal from left to right. -/
def markers : Literal → List Marker
  | marker kind raw span => [⟨kind, raw, some span⟩]
  | array items => allMarkers items
  | _ => []

/-- The typed literals of several literals from left to right. -/
def allMarkers : List Literal → List Marker
  | [] => []
  | v :: vs => v.markers ++ allMarkers vs

end

@[simp] theorem markers_array (items : List Literal) :
    (array items).markers = items.flatMap markers := by
  rw [markers]
  induction items with
  | nil => rfl
  | cons v vs ih => rw [allMarkers, ih, List.flatMap_cons]

/-- The typed literal of a scalar is that of its token. -/
theorem markers_of_ofToken? {token : Token} {v : Literal} (h : ofToken? token = some v) :
    v.markers = token.marker?.toList := by
  obtain ⟨kind, span⟩ := token
  cases kind with
  | string _ | number _ | boolean _ | null | marker _ _ =>
    cases h
    rfl
  | _ => cases h

end Literal

namespace Query

/-- The typed literals of a query from left to right. -/
def markers (q : Query) : List Marker := q.comparisons.flatMap fun c => c.value.markers

/-! ### States -/

/-- The typed literals of a chain from left to right. -/
def Chain.markers (chain : Chain) : List Marker :=
  (chain.disjuncts.reverse ++ chain.conjuncts.reverse).flatMap Query.markers

theorem Chain.markers_eq_flatMap (chain : Chain) :
    chain.markers = chain.comparisons.flatMap fun c => c.value.markers := by
  rw [markers, comparisons, List.flatMap_assoc]
  rfl

/-- The typed literals of the chains that wait for a group to end. -/
def framesMarkers : List Frame → List Marker
  | [] => []
  | .negation :: frames => framesMarkers frames
  | .group outer :: frames => framesMarkers frames ++ outer.markers

theorem framesMarkers_eq_flatMap (frames : List Frame) :
    framesMarkers frames = (framesComparisons frames).flatMap fun c => c.value.markers := by
  induction frames with
  | nil => rfl
  | cons frame frames ih =>
    cases frame with
    | negation => exact ih
    | group outer =>
      rw [framesMarkers, ih, Chain.markers_eq_flatMap, framesComparisons, List.flatMap_append]

/-- The typed literals of the arrays that are open. -/
def arraysMarkers : List (List Literal) → List Marker
  | [] => []
  | items :: outer => arraysMarkers outer ++ items.reverse.flatMap Literal.markers

/-- The typed literals that have been read of the current operand. -/
def Mode.markers : Mode → List Marker
  | literal _ arrays => arraysMarkers arrays
  | firstItem _ outer => arraysMarkers outer
  | afterItem _ items outer => arraysMarkers (items :: outer)
  | _ => []

/-- The typed literals of the operand that a move ends, or that is being read after it. -/
def Move.markers (move : Move) : List Marker :=
  (move.comparisons.flatMap fun c => c.value.markers) ++ move.mode.markers

namespace Move

/-- A finished literal comes after those in the arrays that are open. -/
theorem markers_deliver (pending : Pending) (value : Literal) (stop : Nat)
    (arrays : List (List Literal)) :
    (deliver pending value stop arrays).markers = arraysMarkers arrays ++ value.markers := by
  cases arrays with
  | nil => simp [deliver, markers, comparisons, mode, Mode.markers, arraysMarkers]
  | cons items outer => simp [deliver, markers, comparisons, mode, Mode.markers, arraysMarkers]

theorem markers_of_ofLiteral? {token : Token} {pending : Pending} {arrays : List (List Literal)}
    {move : Move} (h : ofLiteral? token pending arrays = some move) :
    move.markers = arraysMarkers arrays ++ token.marker?.toList := by
  by_cases hkind : token.kind = .leftBracket
  · rw [ofLiteral?, hkind, Option.some.injEq] at h
    subst h
    rw [Token.marker?, hkind]
    exact (List.append_nil _).symm
  · rw [ofLiteral?_of_ne hkind, Option.map_eq_some_iff] at h
    obtain ⟨value, hvalue, rfl⟩ := h
    rw [markers_deliver, Literal.markers_of_ofToken? hvalue]

end Move

/-- **Every move of a token** adds the typed literal of the token, if it is one. -/
theorem Mode.markers_of_move? {mode : Mode} {token : Token} {move : Move}
    (h : mode.move? token = some move) : move.markers = mode.markers ++ token.marker?.toList := by
  cases mode with
  | literal pending arrays => exact Move.markers_of_ofLiteral? h
  | firstItem pending outer =>
    rw [move?] at h
    split at h
    · rename_i hclose
      cases h
      rw [Move.markers_deliver, Token.marker?, hclose]
      rfl
    · rw [Move.markers_of_ofLiteral? h, arraysMarkers]
      simp [markers]
  | afterItem pending items outer =>
    rw [move?] at h
    split at h
    · rename_i hcomma
      cases h
      rw [Token.marker?, hcomma]
      exact (List.append_nil _).symm
    · rename_i hclose
      cases h
      rw [Move.markers_deliver, Token.marker?, hclose, Literal.markers_array]
      exact (List.append_nil _).symm
    · cases h
  -- In the other modes no literal is being read, and no token that is allowed is one.
  | start | operand =>
    obtain ⟨kind, span⟩ := token
    cases kind with
    | not | leftParen | field _ =>
      cases h
      rfl
    | _ => cases h
  | operator field start =>
    obtain ⟨kind, span⟩ := token
    cases kind with
    | not | present | equal | notEqual | greater | greaterEqual | less | lessEqual | pattern
    | member =>
      cases h
      rfl
    | _ => cases h
  | negatedOperator field start =>
    obtain ⟨kind, span⟩ := token
    cases kind with
    | member | present =>
      cases h
      rfl
    | _ => cases h
  | afterOperand =>
    obtain ⟨kind, span⟩ := token
    cases kind with
    | and | or | rightParen =>
      cases h
      rfl
    | _ => cases h
  | tooDeep => cases h

namespace State

/-- The typed literals that have been read, up to the current operand. -/
def settledMarkers (s : State) : List Marker := framesMarkers s.frames ++ s.chain.markers

/-- The typed literals that have been read. -/
def markers (s : State) : List Marker := s.settledMarkers ++ s.mode.markers

variable {limit : Nat}

theorem markers_of_mode {s : State} (h : s.mode.markers = []) : s.markers = s.settledMarkers := by
  rw [markers, h, List.append_nil]

theorem settledMarkers_eq_flatMap (s : State) :
    s.settledMarkers = s.comparisons.flatMap fun c => c.value.markers := by
  rw [settledMarkers, comparisons, List.flatMap_append, framesMarkers_eq_flatMap,
    Chain.markers_eq_flatMap]

theorem markers_of_make? {s next : State} {move : Move} (h : s.make? limit move = some next) :
    next.mode = .tooDeep ∨ next.markers = s.settledMarkers ++ move.markers := by
  rcases mode_of_make? h with hdeep | hmode
  · exact .inl hdeep
  · rw [markers, hmode, settledMarkers_eq_flatMap, make?_comparisons h, List.flatMap_append,
      ← settledMarkers_eq_flatMap, List.append_assoc]
    exact .inr rfl

/-- **One token** adds its typed literal, if it is one, unless it opens one level too many. -/
theorem next?_markers {s next : State} {token : Token} (h : s.next? limit token = some next) :
    next.mode = .tooDeep ∨ next.markers = s.markers ++ token.marker?.toList := by
  rw [next?_eq_move] at h
  obtain ⟨move, hmove, hmake⟩ := Option.bind_eq_some_iff.mp h
  rcases markers_of_make? hmake with hdeep | hmarkers
  · exact .inl hdeep
  · rw [hmarkers, Mode.markers_of_move? hmove, ← List.append_assoc]
    exact .inr rfl

/-- **Several tokens** add their typed literals in their order, unless the last of them opens one
level too many. -/
theorem feed?_markers {s last : State} {tokens : List Token}
    (hfeed : s.feed? limit tokens = some last) (hlast : last.mode ≠ .tooDeep) :
    last.markers = s.markers ++ tokens.filterMap Token.marker? := by
  induction tokens generalizing s with
  | nil =>
    cases hfeed
    exact (List.append_nil _).symm
  | cons token tokens ih =>
    obtain ⟨next, hnext, hrest⟩ := Option.bind_eq_some_iff.mp hfeed
    rcases next?_markers hnext with hdeep | hmarkers
    · exact absurd (mode_of_feed?_tooDeep hdeep hrest) hlast
    · rw [ih hrest, hmarkers, List.append_assoc, List.filterMap_cons]
      cases token.marker? with
      | none => rfl
      | some m => rfl

end State

/-- **The typed literals of a tree are those of its tokens**, in the same order and at the same
places. -/
theorem markers_of_ofTokens {limit : Nat} {tokens tail : List Token} {q : Query}
    (hend : ∀ t ∈ tokens, t.kind ≠ .endOfInput) (htail : ∀ t ∈ tail.head?, t.kind = .endOfInput)
    (h : ofTokens limit (tokens ++ tail) = .ok q) : q.markers = tokens.filterMap Token.marker? := by
  obtain ⟨last, hfeed, hmode, hframes, rfl⟩ := (State.run_eq_ok_iff hend htail).mp h
  have hmarkers := State.feed?_markers hfeed (by simp [hmode])
  rw [State.markers_of_mode (by rw [hmode]; rfl), State.settledMarkers, hframes,
    Chain.markers_eq_flatMap] at hmarkers
  rw [markers, Chain.comparisons_close]
  exact hmarkers

end Query

end QueryFilter
