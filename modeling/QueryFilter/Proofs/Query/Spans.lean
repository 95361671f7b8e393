import QueryFilter.Proofs.Query.Soundness

/-!
# Comparisons stand between their tokens

The span of a comparison goes from the start of one token to the end of a later one: of its field,
and of the last token that belongs to it. The parser keeps the first of these two offsets while it
reads the comparison, and takes the second one from the token that ends it.

The comparisons that are finished are found in the parser's state, in the chains that wait for a
group to end and in the current chain. A move adds at most one of them, at the end, and leaves all
others as they are.

## Main definitions

* `Query.State.comparisons` — the comparisons that have been read
* `Query.Mode.offset?` — where the comparison starts that is being read
* `Query.Move.Follows` — what a move does to these offsets
* `Query.Move.Continues` — what it can be inside a comparison
* `Query.State.Spanned` — all of these offsets are offsets of tokens

## Main results

* `Query.State.make?_comparisons`, `Query.Mode.follows_of_move?` — one move
* `Query.Move.begins_of_move?`, `Query.Move.continues_of_move?` — what it can be outside of
  comparisons, and inside of one
* `Query.State.next?_spanned`, `Query.State.feed?_spanned` — one token, and several
* `Query.spans_of_ofTokens` — the spans of the comparisons of a tree
-/

namespace QueryFilter

namespace Query

/-! ### Finished comparisons -/

theorem comparisons_conjunction (qs : List Query) :
    (conjunction qs).comparisons = qs.flatMap comparisons := by
  rcases qs with _ | ⟨q, _ | ⟨r, more⟩⟩
  · rfl
  · exact (List.flatMap_singleton comparisons q).symm
  · exact allComparisons_eq_flatMap _

theorem comparisons_disjunction (qs : List Query) :
    (disjunction qs).comparisons = qs.flatMap comparisons := by
  rcases qs with _ | ⟨q, _ | ⟨r, more⟩⟩
  · rfl
  · exact (List.flatMap_singleton comparisons q).symm
  · exact allComparisons_eq_flatMap _

/-- The comparisons of a chain from left to right. -/
def Chain.comparisons (chain : Chain) : List Comparison :=
  (chain.disjuncts.reverse ++ chain.conjuncts.reverse).flatMap Query.comparisons

namespace Chain

theorem comparisons_add (chain : Chain) (q : Query) :
    (chain.add q).comparisons = chain.comparisons ++ q.comparisons := by
  simp [comparisons, add]

theorem comparisons_split (chain : Chain) : chain.split.comparisons = chain.comparisons := by
  simp [comparisons, split, comparisons_conjunction]

theorem comparisons_close (chain : Chain) : chain.close.comparisons = chain.comparisons := by
  rw [close, comparisons_disjunction, ← comparisons_split]
  simp [comparisons, split]

end Chain

/-- The comparisons of the chains that wait for a group to end. -/
def framesComparisons : List Frame → List Comparison
  | [] => []
  | .negation :: frames => framesComparisons frames
  | .group outer :: frames => framesComparisons frames ++ outer.comparisons

/-- The comparison that a move ends, if it does. -/
def Move.comparisons : Move → List Comparison
  | compare c => [c]
  | _ => []

namespace State

variable {limit : Nat}

/-- The comparisons that have been read, from left to right. -/
def comparisons (s : State) : List Comparison := framesComparisons s.frames ++ s.chain.comparisons

theorem comparisons_settle (chain : Chain) (q : Query) (frames : List Frame) :
    (settle chain q frames).comparisons =
      framesComparisons frames ++ chain.comparisons ++ q.comparisons := by
  induction frames generalizing q with
  | nil => exact Chain.comparisons_add chain q
  | cons frame frames ih =>
    cases frame with
    | negation => exact ih (.not q)
    | group outer => rw [settle, comparisons, Chain.comparisons_add, ← List.append_assoc]; simp

/-- **One move** adds the comparison that it ends. -/
theorem make?_comparisons {s next : State} {move : Move} (h : s.make? limit move = some next) :
    next.comparisons = s.comparisons ++ move.comparisons := by
  obtain ⟨frames, chain, mode⟩ := s
  cases move with
  | compare c =>
    cases h
    exact comparisons_settle chain (.comparison c) frames
  | openGroup =>
    cases h
    rfl
  | endDisjunct =>
    cases h
    rw [comparisons, Chain.comparisons_split]
    exact (List.append_nil _).symm
  | closeGroup =>
    rcases frames with _ | ⟨_ | outer, frames⟩
    · cases h
    · cases h
    · cases h
      rw [comparisons_settle]
      change _ ++ chain.close.comparisons = _ ++ chain.comparisons ++ []
      rw [Chain.comparisons_close, List.append_nil]
      rfl
  | wait _ | openArray _ _ | openNegation =>
    cases h
    exact (List.append_nil _).symm

end State

/-! ### Offsets -/

/-- Where the comparison starts that is being read. -/
def Mode.offset? : Mode → Option Nat
  | operator _ offset | negatedOperator _ offset => some offset
  | literal pending _ | firstItem pending _ | afterItem pending _ _ => some pending.start
  | start | operand | afterOperand | tooDeep => none

/-- What a move says about offsets: a comparison is begun at the token or goes on, and one that ends
does so at the token. -/
structure Move.Follows (mode : Mode) (token : Token) (move : Move) : Prop where
  goesOn : ∀ offset ∈ move.mode.offset?, offset ∈ mode.offset? ∨ offset = token.span.start
  ends : ∀ c ∈ move.comparisons, c.span.start ∈ mode.offset? ∧ c.span.stop = token.span.stop

namespace Move

variable {mode : Mode} {token : Token}

/-- **Outside of comparisons**, a token ends none. It begins one as the first token of a query does,
or leaves the parser outside. -/
theorem begins_of_move? {move : Move} (hmode : mode.offset? = none)
    (h : mode.move? token = some move) :
    move.comparisons = [] ∧ (move.mode.offset? = none ∨ ∃ next, move = wait next ∧
      next.offset? = some token.span.start ∧ Mode.start.move? token = some move) := by
  cases mode with
  | start | operand =>
    have hfirst : Mode.start.move? token = some move := h
    rw [Mode.move?] at h
    split at h
    · cases h
      exact ⟨rfl, .inl rfl⟩
    · cases h
      exact ⟨rfl, .inl rfl⟩
    · cases h
      exact ⟨rfl, .inr ⟨_, rfl, rfl, hfirst⟩⟩
    · cases h
  | afterOperand =>
    rw [Mode.move?] at h
    split at h
    · cases h
      exact ⟨rfl, .inl rfl⟩
    · cases h
      exact ⟨rfl, .inl rfl⟩
    · cases h
      exact ⟨rfl, .inl rfl⟩
    · cases h
  | tooDeep => cases h
  | operator _ _ | negatedOperator _ _ | literal _ _ => cases hmode
  | firstItem _ _ | afterItem _ _ _ => cases hmode

/-- What a token does inside a comparison that starts at an offset: the comparison goes on, opens an
array, or ends with the token. -/
inductive Continues (offset : Nat) (token : Token) : Move → Prop
  | wait {mode : Mode} (h : mode.offset? = some offset) : Continues offset token (wait mode)
  | openArray {pending : Pending} {arrays : List (List Literal)} (h : pending.start = offset) :
      Continues offset token (openArray pending arrays)
  | compare {c : Comparison} (h : c.span = ⟨offset, token.span.stop⟩) :
      Continues offset token (compare c)

theorem continues_deliver (pending : Pending) (value : Literal) (arrays : List (List Literal)) :
    (deliver pending value token.span.stop arrays).Continues pending.start token := by
  cases arrays with
  | nil => exact .compare rfl
  | cons items outer => exact .wait rfl

theorem continues_of_ofLiteral? {pending : Pending} {arrays : List (List Literal)} {move : Move}
    (h : ofLiteral? token pending arrays = some move) : move.Continues pending.start token := by
  by_cases hkind : token.kind = .leftBracket
  · simp only [ofLiteral?, hkind, Option.some.injEq] at h
    subst h
    exact .openArray rfl
  · rw [ofLiteral?_of_ne hkind, Option.map_eq_some_iff] at h
    obtain ⟨value, -, rfl⟩ := h
    exact continues_deliver pending value arrays

/-- **Inside a comparison**, every token continues it. -/
theorem continues_of_move? {offset : Nat} {move : Move} (hmode : mode.offset? = some offset)
    (h : mode.move? token = some move) : move.Continues offset token := by
  cases mode with
  | start | operand | afterOperand | tooDeep => cases hmode
  | operator field offset =>
    cases hmode
    rw [Mode.move?] at h
    split at h
    · cases h
      exact .wait rfl
    · cases h
      exact .compare rfl
    · obtain ⟨op, -, rfl⟩ := Option.map_eq_some_iff.mp h
      exact .wait rfl
  | negatedOperator field offset =>
    cases hmode
    rw [Mode.move?] at h
    split at h
    · cases h
      exact .wait rfl
    · cases h
      exact .compare rfl
    · cases h
  | literal pending arrays =>
    cases hmode
    exact continues_of_ofLiteral? h
  | firstItem pending outer =>
    cases hmode
    rw [Mode.move?] at h
    split at h
    · cases h
      exact continues_deliver pending _ outer
    · exact continues_of_ofLiteral? h
  | afterItem pending items outer =>
    cases hmode
    rw [Mode.move?] at h
    split at h
    · cases h
      exact .wait rfl
    · cases h
      exact continues_deliver pending _ outer
    · cases h

end Move

/-- **Every move of a token** follows what the parser was waiting for. -/
theorem Mode.follows_of_move? {mode : Mode} {token : Token} {move : Move}
    (h : mode.move? token = some move) : move.Follows mode token := by
  cases hmode : mode.offset? with
  | none =>
    obtain ⟨hends, hbegins⟩ := Move.begins_of_move? hmode h
    refine ⟨fun offset ho => .inr ?_, fun c hc => absurd hc (by simp [hends])⟩
    rcases hbegins with hnone | ⟨next, rfl, hstart, -⟩
    · rw [hnone] at ho
      exact absurd ho (Option.not_mem_none _)
    · exact Option.some.inj (ho.symm.trans hstart)
  | some offset =>
    cases Move.continues_of_move? hmode h with
    | wait hoffset =>
      refine ⟨fun _ ho => .inl ?_, fun _ hc => absurd hc List.not_mem_nil⟩
      rwa [hmode, ← hoffset]
    | openArray hoffset =>
      refine ⟨fun _ ho => .inl ?_, fun _ hc => absurd hc List.not_mem_nil⟩
      rwa [hmode, ← hoffset]
    | compare hspan =>
      refine ⟨fun _ ho => absurd ho (Option.not_mem_none _), fun d hd => ?_⟩
      rw [List.mem_singleton.mp hd, hspan]
      exact ⟨hmode, rfl⟩

namespace State

variable {limit : Nat}

/-- Every offset that the parser keeps is that of a token it has read, and the two of a comparison
are in the order of the tokens. -/
structure Spanned (tokens : List Token) (s : State) : Prop where
  /-- A finished comparison stands between two tokens. -/
  finished : ∀ c ∈ s.comparisons, ∃ t u, [t, u].Sublist tokens ∧
    c.span = ⟨t.span.start, u.span.stop⟩
  /-- The one that is being read starts with a token. -/
  started : ∀ offset ∈ s.mode.offset?, ∃ t ∈ tokens, t.span.start = offset

theorem spanned_initial : initial.Spanned [] :=
  ⟨fun _ hc => absurd hc List.not_mem_nil, fun _ ho => absurd ho (Option.not_mem_none _)⟩

/-- **One token.** -/
theorem next?_spanned {s next : State} {tokens : List Token} {token : Token}
    (hs : s.Spanned tokens) (h : s.next? limit token = some next) :
    next.Spanned (tokens ++ [token]) := by
  rw [next?_eq_move] at h
  obtain ⟨move, hmove, hmake⟩ := Option.bind_eq_some_iff.mp h
  have hfollows := Mode.follows_of_move? hmove
  constructor
  · intro c hc
    rw [make?_comparisons hmake] at hc
    rcases List.mem_append.mp hc with hc | hc
    · obtain ⟨t, u, hsub, hspan⟩ := hs.finished c hc
      exact ⟨t, u, hsub.trans (List.sublist_append_left _ _), hspan⟩
    · obtain ⟨hstart, hstop⟩ := hfollows.ends c hc
      obtain ⟨t, ht, hoffset⟩ := hs.started _ hstart
      refine ⟨t, token, (List.singleton_sublist.mpr ht).append (List.Sublist.refl [token]), ?_⟩
      rw [hoffset, ← hstop]
  · intro offset ho
    rcases mode_of_make? hmake with hmode | hmode
    · rw [hmode] at ho
      exact absurd ho (Option.not_mem_none _)
    · rw [hmode] at ho
      rcases hfollows.goesOn offset ho with ho | rfl
      · obtain ⟨t, ht, hstart⟩ := hs.started offset ho
        exact ⟨t, List.mem_append_left _ ht, hstart⟩
      · exact ⟨token, List.mem_append_right _ (List.mem_singleton_self token), rfl⟩

/-- **Several tokens.** -/
theorem feed?_spanned {s last : State} {tokens more : List Token} (hs : s.Spanned tokens)
    (h : s.feed? limit more = some last) : last.Spanned (tokens ++ more) := by
  induction more generalizing s tokens with
  | nil =>
    cases h
    rwa [List.append_nil]
  | cons token more ih =>
    obtain ⟨next, hnext, hrest⟩ := Option.bind_eq_some_iff.mp h
    rw [List.append_cons]
    exact ih (next?_spanned hs hnext) hrest

end State

/-- **The comparisons of a tree stand between tokens.** -/
theorem spans_of_ofTokens {limit : Nat} {tokens tail : List Token} {q : Query}
    (hend : ∀ t ∈ tokens, t.kind ≠ .endOfInput) (htail : ∀ t ∈ tail.head?, t.kind = .endOfInput)
    (h : ofTokens limit (tokens ++ tail) = .ok q) :
    ∀ c ∈ q.comparisons, ∃ t u, [t, u].Sublist tokens ∧ c.span = ⟨t.span.start, u.span.stop⟩ := by
  obtain ⟨⟨frames, chain, mode⟩, hfeed, -, rfl, rfl⟩ := (State.run_eq_ok_iff hend htail).mp h
  rw [Chain.comparisons_close]
  exact (State.feed?_spanned State.spanned_initial hfeed).finished

end Query

end QueryFilter
