import QueryFilter.Proofs.Outcome
import QueryFilter.Proofs.Query.Moves
import QueryFilter.Token.Scan

/-!
# The limit of nesting

The limit is asked in one place only, where a token opens a level. Under two limits the parser
therefore goes through the same states, until a level is one too many under the smaller of them.
From there on that parser has no choice left: the next token, whatever it is, has the error of the
limit. So a limit never changes a tree or a syntax error into another one.

A level is opened by a token, and closed when what it opened ends. So no more levels are open than
tokens that open one have been read, and a limit that is no less than the number of these tokens is
never exceeded, however many of the levels are closed again.

## Main definitions

* `TokenKind.opensLevel` — the tokens that can open a level
* `Query.State.depth` — how many levels are open

## Main results

* `Query.State.next?_of_le`, `Query.State.run_of_le` — a token and a run under a smaller limit
* `Query.State.depth_of_next?`, `Query.State.run_ne_tooDeep` — a token and a run under a limit that
  leaves room for all levels
* `Query.ofTokens_of_limit_le` — what a limit can change
-/

namespace QueryFilter

/-- A token that can open a level. `NOT` after a field is of this kind too, but opens none. -/
def TokenKind.opensLevel : TokenKind → Bool
  | not | leftParen | leftBracket => true
  | _ => false

namespace Query

namespace State

variable {limit limit' : Nat}

/-! ### Two limits -/

theorem deepen_of_le (h : limit ≤ limit') (s : State) (depth : Nat) (mode : Mode) :
    s.deepen limit depth mode = s.deepen limit' depth mode ∨
      (s.deepen limit depth mode).mode = .tooDeep := by
  by_cases hdepth : depth < limit
  · left
    rw [deepen_of_lt hdepth, deepen_of_lt (Nat.lt_of_lt_of_le hdepth h)]
  · exact .inr (if_neg hdepth)

/-- A move leads to the same state, or opens one level too many. -/
theorem make?_of_le (h : limit ≤ limit') (s : State) (move : Move) :
    s.make? limit move = s.make? limit' move ∨
      ∃ next, s.make? limit move = some next ∧ next.mode = .tooDeep := by
  have hopens : ∀ (opened : State) (depth : Nat) (mode : Mode),
      some (opened.deepen limit depth mode) = some (opened.deepen limit' depth mode) ∨
        ∃ next, some (opened.deepen limit depth mode) = some next ∧ next.mode = .tooDeep :=
    fun opened depth mode => (deepen_of_le h opened depth mode).imp (congrArg some)
      fun hdeep => ⟨_, rfl, hdeep⟩
  cases move with
  | openArray pending arrays => exact hopens _ _ _
  | openNegation | openGroup => exact hopens _ _ _
  | wait _ | compare _ | endDisjunct | closeGroup => exact .inl rfl

/-- **One token** leads to the same under a smaller limit, or opens one level too many. -/
theorem next?_of_le (h : limit ≤ limit') (s : State) (token : Token) :
    s.next? limit token = s.next? limit' token ∨
      ∃ next, s.next? limit token = some next ∧ next.mode = .tooDeep := by
  rw [next?_eq_move, next?_eq_move]
  cases s.mode.move? token with
  | none => exact .inl rfl
  | some move => exact make?_of_le h s move

/-- Once one level too many is open, only the error of the limit is left. -/
theorem run_of_tooDeep {s : State} (hdeep : s.mode = .tooDeep) (limit stop : Nat)
    (tokens : List Token) : ∃ span, s.run limit stop tokens = .error (.tooDeep span limit) := by
  have hrefuse : ∀ token, s.refuse limit token = .tooDeep token.span limit := by
    intro token
    rw [refuse, hdeep]
  have hfinish : ∀ token, s.finish limit token = .error (.tooDeep token.span limit) := by
    intro token
    rw [finish, hdeep, hrefuse]
  cases tokens with
  | nil => exact ⟨_, hfinish _⟩
  | cons token tokens =>
    have hnext : s.next? limit token = none := by rw [next?, hdeep]
    refine ⟨token.span, ?_⟩
    rw [run]
    split
    · exact hfinish token
    · rw [step, hnext, hrefuse]

/-- Everywhere else an error does not depend on the limit, and is not that of the limit. -/
theorem refuse_of_ne_tooDeep {s : State} (hmode : s.mode ≠ .tooDeep) (limit : Nat)
    (token : Token) : s.refuse limit token =
      .unexpected token.span (s.expected (token.kind = .endOfInput)) token.kind.describe := by
  rw [refuse]
  split
  · exact absurd ‹_› hmode
  · rfl

theorem finish_of_ne_tooDeep {s : State} (hmode : s.mode ≠ .tooDeep) (limit limit' : Nat)
    (token : Token) : s.finish limit token = s.finish limit' token ∧
      ∀ span n, s.finish limit token ≠ .error (.tooDeep span n) := by
  rw [finish, finish, refuse_of_ne_tooDeep hmode, refuse_of_ne_tooDeep hmode]
  split
  · exact ⟨rfl, nofun⟩
  · exact ⟨rfl, nofun⟩

/-- **A run** under a smaller limit exceeds it, or gives the same. -/
theorem run_of_le (h : limit ≤ limit') (s : State) (stop : Nat) (tokens : List Token) :
    (∃ span, s.run limit stop tokens = .error (.tooDeep span limit)) ∨
      s.run limit stop tokens = s.run limit' stop tokens ∧
        ∀ span n, s.run limit stop tokens ≠ .error (.tooDeep span n) := by
  induction tokens generalizing s stop with
  | nil =>
    by_cases hdeep : s.mode = .tooDeep
    · exact .inl (run_of_tooDeep hdeep limit stop [])
    · exact .inr (finish_of_ne_tooDeep hdeep limit limit' _)
  | cons token tokens ih =>
    by_cases hdeep : s.mode = .tooDeep
    · exact .inl (run_of_tooDeep hdeep limit stop (token :: tokens))
    rw [run, run]
    by_cases hend : token.kind = .endOfInput
    · rw [if_pos hend, if_pos hend]
      exact .inr (finish_of_ne_tooDeep hdeep limit limit' token)
    rw [if_neg hend, if_neg hend, step, step]
    rcases next?_of_le h s token with hsame | ⟨next, hnext, hnextDeep⟩
    · rw [hsame]
      cases s.next? limit' token with
      | none =>
        right
        rw [refuse_of_ne_tooDeep hdeep, refuse_of_ne_tooDeep hdeep]
        exact ⟨rfl, nofun⟩
      | some next => exact ih next token.span.stop
    · rw [hnext]
      exact .inl (run_of_tooDeep hnextDeep limit token.span.stop tokens)

end State

/-! ### Open levels -/

/-- How many arrays are open around the current literal. -/
def Mode.openArrays : Mode → Nat
  | literal _ arrays => arrays.length
  | firstItem _ outer | afterItem _ _ outer => outer.length + 1
  | start | operand | operator _ _ | negatedOperator _ _ | afterOperand | tooDeep => 0

/-- Whether one level too many has been opened. -/
def Mode.isTooDeep : Mode → Bool
  | tooDeep => true
  | _ => false

/-- How many levels a move opens. -/
def Move.levels : Move → Nat
  | openArray _ _ | openNegation | openGroup => 1
  | wait _ | compare _ | endDisjunct | closeGroup => 0

/-- What a move says about levels: only a token that opens one leads to a move that does, and there
are no more arrays open after it than before it and the one that it opens. -/
structure Move.Nests (mode : Mode) (token : Token) (move : Move) : Prop where
  opens : move.levels = 0 ∨ token.kind.opensLevel
  arrays : move.mode.openArrays ≤ mode.openArrays + move.levels
  goesOn : move.mode.isTooDeep = false

namespace Move

variable {mode : Mode} {token : Token}

theorem nests_deliver {pending : Pending} {value : Literal} {stop : Nat}
    {arrays : List (List Literal)} (h : arrays.length ≤ mode.openArrays) :
    (deliver pending value stop arrays).Nests mode token := by
  cases arrays with
  | nil => exact ⟨.inl rfl, Nat.zero_le _, rfl⟩
  | cons items outer => exact ⟨.inl rfl, h, rfl⟩

theorem nests_of_ofLiteral? {pending : Pending} {arrays : List (List Literal)} {move : Move}
    (h : arrays.length ≤ mode.openArrays) (hmove : ofLiteral? token pending arrays = some move) :
    move.Nests mode token := by
  by_cases hkind : token.kind = .leftBracket
  · simp only [ofLiteral?, hkind, Option.some.injEq] at hmove
    subst hmove
    exact ⟨.inr (by rw [hkind]; rfl), Nat.succ_le_succ h, rfl⟩
  · rw [ofLiteral?_of_ne hkind, Option.map_eq_some_iff] at hmove
    obtain ⟨value, -, rfl⟩ := hmove
    exact nests_deliver h

end Move

/-- **Every move of a token** opens a level only if the token does. -/
theorem Mode.nests_of_move? {mode : Mode} {token : Token} {move : Move}
    (h : mode.move? token = some move) : move.Nests mode token := by
  -- outside of arrays, there is nothing to count but the level that is opened
  have hplain : ∀ {move : Move}, move.levels = 0 ∨ token.kind.opensLevel →
      move.mode.openArrays = 0 → move.mode.isTooDeep = false → move.Nests mode token :=
    fun hopens harrays hmode => ⟨hopens, by omega, hmode⟩
  cases mode with
  | start | operand =>
    rw [move?] at h
    split at h
    · rename_i hkind
      cases h
      exact hplain (.inr (by rw [hkind]; rfl)) rfl rfl
    · rename_i hkind
      cases h
      exact hplain (.inr (by rw [hkind]; rfl)) rfl rfl
    · cases h
      exact hplain (.inl rfl) rfl rfl
    · cases h
  | operator field offset =>
    rw [move?] at h
    split at h
    · cases h
      exact hplain (.inl rfl) rfl rfl
    · cases h
      exact hplain (.inl rfl) rfl rfl
    · obtain ⟨op, -, rfl⟩ := Option.map_eq_some_iff.mp h
      exact hplain (.inl rfl) rfl rfl
  | negatedOperator field offset =>
    rw [move?] at h
    split at h
    · cases h
      exact hplain (.inl rfl) rfl rfl
    · cases h
      exact hplain (.inl rfl) rfl rfl
    · cases h
  | literal pending arrays => exact Move.nests_of_ofLiteral? (Nat.le_refl _) h
  | firstItem pending outer =>
    rw [move?] at h
    split at h
    · cases h
      exact Move.nests_deliver (Nat.le_succ _)
    · exact Move.nests_of_ofLiteral? (Nat.le_refl _) h
  | afterItem pending items outer =>
    rw [move?] at h
    split at h
    · cases h
      exact ⟨.inl rfl, Nat.le_refl _, rfl⟩
    · cases h
      exact Move.nests_deliver (Nat.le_succ _)
    · cases h
  | afterOperand =>
    rw [move?] at h
    split at h
    · cases h
      exact hplain (.inl rfl) rfl rfl
    · cases h
      exact hplain (.inl rfl) rfl rfl
    · cases h
      exact hplain (.inl rfl) rfl rfl
    · cases h
  | tooDeep => cases h

namespace State

variable {limit : Nat}

/-- How many levels are open: negations and groups around the operand, and arrays in it. -/
def depth (s : State) : Nat := s.frames.length + s.mode.openArrays

theorem depth_settle_le (chain : Chain) (q : Query) (frames : List Frame) :
    (settle chain q frames).depth ≤ frames.length := by
  induction frames generalizing q with
  | nil => exact Nat.le_refl 0
  | cons frame frames ih =>
    cases frame with
    | negation => exact Nat.le_succ_of_le (ih (.not q))
    | group outer => exact Nat.le_refl _

theorem depth_deepen_le (s : State) (limit depth : Nat) (mode : Mode) :
    (s.deepen limit depth mode).depth ≤ s.frames.length + mode.openArrays := by
  rw [deepen, State.depth]
  split
  · exact Nat.le_refl _
  · exact Nat.add_le_add_left (Nat.zero_le _) _

/-- A move opens as many levels as it says, and may close others. -/
theorem depth_of_make? {s next : State} {token : Token} {move : Move}
    (hnests : move.Nests s.mode token) (h : s.make? limit move = some next) :
    next.depth ≤ s.depth + move.levels := by
  have harrays := hnests.arrays
  have hframes : s.frames.length ≤ s.depth := Nat.le_add_right _ _
  cases move with
  | wait mode =>
    cases h
    exact Nat.add_le_add_left harrays _
  | openArray pending arrays =>
    cases h
    exact Nat.le_trans (depth_deepen_le _ _ _ _) (Nat.add_le_add_left harrays _)
  | openNegation | openGroup =>
    cases h
    exact Nat.le_trans (depth_deepen_le _ _ _ _) (Nat.succ_le_succ hframes)
  | compare c =>
    cases h
    exact Nat.le_trans (depth_settle_le _ _ _) hframes
  | endDisjunct =>
    cases h
    exact hframes
  | closeGroup =>
    obtain ⟨_ | ⟨_ | outer, frames⟩, chain, mode⟩ := s
    · cases h
    · cases h
    · cases h
      have hclosed := depth_settle_le outer (.group chain.close) frames
      exact Nat.le_trans (Nat.le_succ_of_le hclosed) hframes

/-- A move that has room for the level it opens does not exceed the limit. -/
theorem mode_of_make?_of_room {s next : State} {token : Token} {move : Move}
    (hnests : move.Nests s.mode token) (h : s.make? limit move = some next)
    (hroom : s.depth + move.levels ≤ limit) : next.mode = move.mode := by
  have harrays := hnests.arrays
  have hframes : s.frames.length ≤ s.depth := Nat.le_add_right _ _
  cases move with
  | wait mode | endDisjunct =>
    cases h
    rfl
  | openArray pending arrays =>
    cases h
    have hlt : s.frames.length + arrays.length < limit :=
      Nat.lt_of_lt_of_le (Nat.add_lt_add_left harrays _) hroom
    rw [deepen_of_lt hlt]
    rfl
  | openNegation | openGroup =>
    cases h
    rw [deepen_of_lt (Nat.lt_of_le_of_lt hframes hroom)]
    rfl
  | compare c =>
    cases h
    exact mode_settle _ _ _
  | closeGroup =>
    obtain ⟨_ | ⟨_ | outer, frames⟩, chain, mode⟩ := s
    · cases h
    · cases h
    · cases h
      exact mode_settle _ _ _

/-- **One token** opens at most one level, and does not exceed the limit if there is room for it. -/
theorem depth_of_next? {s next : State} {token : Token} (h : s.next? limit token = some next) :
    next.depth ≤ s.depth + (if token.kind.opensLevel then 1 else 0) ∧
      (s.depth + (if token.kind.opensLevel then 1 else 0) ≤ limit → next.mode ≠ .tooDeep) := by
  rw [next?_eq_move] at h
  obtain ⟨move, hmove, hmake⟩ := Option.bind_eq_some_iff.mp h
  have hnests := Mode.nests_of_move? hmove
  have hdepth := depth_of_make? hnests hmake
  have hlevels : move.levels ≤ if token.kind.opensLevel then 1 else 0 := by
    rcases hnests.opens with hzero | hopens
    · omega
    · rw [if_pos hopens]
      cases move with
      | _ => simp [Move.levels]
  refine ⟨by omega, fun hroom => ?_⟩
  have hgoesOn := hnests.goesOn
  rw [← mode_of_make?_of_room hnests hmake (by omega)] at hgoesOn
  intro hdeep
  rw [hdeep] at hgoesOn
  cases hgoesOn

/-- **A run** with room for all levels that its tokens can open does not exceed the limit. -/
theorem run_ne_tooDeep {s : State} {stop : Nat} {tokens : List Token} (hmode : s.mode ≠ .tooDeep)
    (hroom : s.depth + tokens.countP (·.kind.opensLevel) ≤ limit) (span : Span) (n : Nat) :
    s.run limit stop tokens ≠ .error (.tooDeep span n) := by
  induction tokens generalizing s stop with
  | nil => exact (finish_of_ne_tooDeep hmode limit limit _).2 span n
  | cons token tokens ih =>
    rw [List.countP_cons] at hroom
    rw [run]
    split
    · exact (finish_of_ne_tooDeep hmode limit limit token).2 span n
    · rw [step]
      cases hnext : s.next? limit token with
      | none =>
        rw [refuse_of_ne_tooDeep hmode]
        nofun
      | some next =>
        obtain ⟨hdepth, hgoesOn⟩ := depth_of_next? hnext
        exact ih (hgoesOn (by omega)) (by omega)

end State

/-! ### Sequences of tokens -/

/-- **The limit only refuses.** Under a smaller limit, tokens exceed it or have the same tree or the
same syntax error as under a larger one. A limit of no less than the number of tokens that can open
a level is not exceeded. -/
theorem ofTokens_of_limit_le (limit limit' : Nat) (h : limit ≤ limit') (tokens : List Token) :
    ((∃ span, ofTokens limit tokens = .error (.tooDeep span limit)) ∨
        ofTokens limit tokens = ofTokens limit' tokens ∧
          ∀ span n, ofTokens limit tokens ≠ .error (.tooDeep span n)) ∧
      (tokens.countP (·.kind.opensLevel) ≤ limit →
        ∀ span n, ofTokens limit tokens ≠ .error (.tooDeep span n)) := by
  refine ⟨State.run_of_le h .initial 0 tokens, fun hcount => ?_⟩
  have hroom : State.initial.depth + tokens.countP (·.kind.opensLevel) ≤ limit := by
    rwa [show State.initial.depth = 0 from rfl, Nat.zero_add]
  exact State.run_ne_tooDeep nofun hroom

/-- Four tokens can open a level and two levels are open at once: one level is too few, and four are
as many as any larger number. -/
theorem ofTokens_of_limit_four :
    ∃ tokens, Token.ofText "(a = 1 OR a IN [2]) AND NOT b NOT EXISTS" = .ok tokens ∧
      tokens.countP (·.kind.opensLevel) = 4 ∧
      ofTokens 1 tokens = .error (.tooDeep ⟨16, 17⟩ 1) ∧
      ofTokens 4 tokens = ofTokens 64 tokens ∧
      ∀ span n, ofTokens 4 tokens ≠ .error (.tooDeep span n) := by
  obtain ⟨tokens, htokens, hfound⟩ := Except.exists_of_toOption_any
    (x := Token.ofText "(a = 1 OR a IN [2]) AND NOT b NOT EXISTS")
    (p := fun tokens => tokens.countP (·.kind.opensLevel) = 4 ∧
      Except.fault? (ofTokens 1 tokens) = some (.tooDeep ⟨16, 17⟩ 1)) (by decide +kernel)
  obtain ⟨hcount, hfault⟩ := of_decide_eq_true hfound
  obtain ⟨hsame, hroom⟩ := ofTokens_of_limit_le 4 64 (by decide) tokens
  have hne := hroom (Nat.le_of_eq hcount)
  refine ⟨tokens, htokens, hcount, Except.fault?_eq_some_iff.mp hfault, ?_, hne⟩
  rcases hsame with ⟨span, hdeep⟩ | ⟨heq, -⟩
  · exact absurd hdeep (hne span 4)
  · exact heq

end Query

end QueryFilter
