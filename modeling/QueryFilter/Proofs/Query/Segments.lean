import QueryFilter.Proofs.Query.Context
import QueryFilter.Proofs.Query.Spans

/-!
# The tokens of a comparison

Every comparison of a query is spelled by tokens that stand next to each other, from the field to
the token that ends it. By themselves, these tokens are a query that is the comparison and nothing
else: what is open around a comparison does not change how it is read, and only takes from the
levels that its arrays may have. The tokens of different comparisons do not overlap, and the
comparisons of the tree have the order of their tokens.

While the parser is inside a comparison, the tokens since its field lead from the start to the same
place. So all there is to know of a token there is that it does the same with nothing open around
the comparison.

## Main definitions

* `Query.IsComparison` — tokens that are a comparison by themselves
* `Query.Holds` — comparisons one after the other in a sequence of tokens
* `Query.State.Tracks` — what is known of the tokens that have been read

## Main results

* `Query.State.next?_tracks`, `Query.State.feed?_tracks` — one token, and several
* `Query.Reads.holds` — the comparisons of a query stand in its tokens
* `Query.Holds.pairwise` — their spans are in order if the tokens are
-/

namespace QueryFilter

namespace Query

variable {limit : Nat}

/-- Tokens that are a comparison by themselves, and cover its span. -/
structure IsComparison (limit : Nat) (tokens : List Token) (c : Comparison) : Prop where
  reads : Reads limit tokens ⟨[], [.comparison c]⟩
  start : tokens.head?.map (·.span.start) = some c.span.start
  stop : tokens.getLast?.map (·.span.stop) = some c.span.stop

/-- Comparisons that stand in a sequence of tokens one after the other. -/
inductive Holds (limit : Nat) : List Token → List Comparison → Prop
  | nil : Holds limit [] []
  | skip {tokens : List Token} {cs : List Comparison} (h : Holds limit tokens cs)
      (more : List Token) : Holds limit (tokens ++ more) cs
  | comparison {tokens segment : List Token} {cs : List Comparison} {c : Comparison}
      (h : Holds limit tokens cs) (hc : IsComparison limit segment c) :
      Holds limit (tokens ++ segment) (cs ++ [c])

/-! ### Reading on -/

namespace State

/-- What is known of the tokens that have been read: the finished comparisons stand in them, and if
another one has begun, the tokens since then lead to the same place with nothing open. -/
inductive Tracks (limit : Nat) : List Token → State → Prop
  | outside {tokens : List Token} {s : State} (h : Holds limit tokens s.comparisons)
      (hmode : s.mode.offset? = none) : Tracks limit tokens s
  | inside {before current : List Token} {s : State} {offset : Nat}
      (h : Holds limit before s.comparisons) (hmode : s.mode.offset? = some offset)
      (hfeed : initial.feed? limit current = some ⟨[], .empty, s.mode⟩)
      (hstart : current.head?.map (·.span.start) = some offset) :
      Tracks limit (before ++ current) s

theorem feed?_singleton (s : State) (token : Token) :
    s.feed? limit [token] = s.next? limit token := by
  rw [feed?]
  cases s.next? limit token with
  | none => rfl
  | some next => rfl

/-- A token outside of comparisons. -/
theorem tracks_of_outside {s next : State} {tokens : List Token} {token : Token} {move : Move}
    (h : Holds limit tokens s.comparisons) (hmode : s.mode.offset? = none)
    (hmove : s.mode.move? token = some move) (hmake : s.make? limit move = some next) :
    next.Tracks limit (tokens ++ [token]) := by
  obtain ⟨hends, hbegins⟩ := Move.begins_of_move? hmode hmove
  have hcomparisons : next.comparisons = s.comparisons := by
    rw [make?_comparisons hmake, hends, List.append_nil]
  rw [← hcomparisons] at h
  rcases hbegins with hnone | ⟨mode, rfl, hoffset, hfirst⟩
  · refine .outside (h.skip [token]) ?_
    rcases mode_of_make? hmake with hnext | hnext
    · rw [hnext]
      rfl
    · rw [hnext, hnone]
  · cases hmake
    refine .inside h hoffset ?_ rfl
    rw [feed?_singleton, next?_eq_move]
    exact congrArg (Option.bind · _) hfirst

/-- A token inside a comparison. -/
theorem tracks_of_inside {s next : State} {before current : List Token} {token : Token}
    {offset : Nat} {move : Move} (h : Holds limit before s.comparisons)
    (hmode : s.mode.offset? = some offset)
    (hfeed : initial.feed? limit current = some ⟨[], .empty, s.mode⟩)
    (hstart : current.head?.map (·.span.start) = some offset)
    (hmove : s.mode.move? token = some move) (hmake : s.make? limit move = some next) :
    next.Tracks limit (before ++ current ++ [token]) := by
  have hcomparisons := make?_comparisons hmake
  have hfeed' : initial.feed? limit (current ++ [token]) =
      make? limit ⟨[], .empty, s.mode⟩ move := by
    rw [feed?_append, hfeed, Option.bind_some, feed?_singleton, next?_eq_move, hmove,
      Option.bind_some]
  have hstart' : (current ++ [token]).head?.map (·.span.start) = some offset := by
    obtain ⟨first, hfirst, hoffset⟩ := Option.map_eq_some_iff.mp hstart
    rw [List.head?_append, hfirst]
    exact congrArg some hoffset
  cases Move.continues_of_move? hmode hmove with
  | wait hoffset =>
    cases hmake
    rw [List.append_assoc]
    exact .inside h hoffset hfeed' hstart'
  | openArray hoffset =>
    rename_i pending arrays
    cases hmake
    by_cases hroom : s.frames.length + arrays.length < limit
    · have halone : arrays.length < limit := Nat.lt_of_le_of_lt (Nat.le_add_left _ _) hroom
      rw [deepen_of_lt hroom, List.append_assoc]
      refine .inside h (congrArg some hoffset) (hfeed'.trans ?_) hstart'
      exact congrArg some (deepen_of_lt (by simpa using halone))
    · rw [deepen, if_neg hroom]
      exact .outside ((h.skip current).skip [token]) rfl
  | compare hspan =>
    rename_i c
    cases hmake
    refine .outside ?_ (by rw [mode_settle]; rfl)
    rw [hcomparisons, List.append_assoc]
    refine h.comparison ⟨hfeed', ?_, ?_⟩
    · rw [hstart', hspan]
    · rw [List.getLast?_concat, hspan]
      rfl

/-- **One token.** -/
theorem next?_tracks {s next : State} {tokens : List Token} {token : Token}
    (hs : s.Tracks limit tokens) (h : s.next? limit token = some next) :
    next.Tracks limit (tokens ++ [token]) := by
  rw [next?_eq_move] at h
  obtain ⟨move, hmove, hmake⟩ := Option.bind_eq_some_iff.mp h
  cases hs with
  | outside h hmode => exact tracks_of_outside h hmode hmove hmake
  | inside h hmode hfeed hstart => exact tracks_of_inside h hmode hfeed hstart hmove hmake

/-- **Several tokens.** -/
theorem feed?_tracks {s last : State} {tokens more : List Token} (hs : s.Tracks limit tokens)
    (h : s.feed? limit more = some last) : last.Tracks limit (tokens ++ more) := by
  induction more generalizing s tokens with
  | nil =>
    cases h
    rwa [List.append_nil]
  | cons token more ih =>
    obtain ⟨next, hnext, hrest⟩ := Option.bind_eq_some_iff.mp h
    rw [List.append_cons]
    exact ih (next?_tracks hs hnext) hrest

end State

/-- **The comparisons of a query stand in its tokens**, one after the other. -/
theorem Reads.holds {tokens : List Token} {chain : Chain} (h : Reads limit tokens chain) :
    Holds limit tokens chain.close.comparisons := by
  have hinitial : State.initial.Tracks limit [] := .outside .nil rfl
  rw [Chain.comparisons_close]
  cases State.feed?_tracks hinitial h with
  | outside h hmode => exact h
  | inside h hmode => cases hmode

/-! ### Where the comparisons stand -/

namespace Holds

variable {tokens : List Token} {cs : List Comparison}

/-- Every comparison has its own part of the tokens. -/
theorem exists_segment (h : Holds limit tokens cs) {c : Comparison} (hc : c ∈ cs) :
    ∃ before segment after, tokens = before ++ segment ++ after ∧ IsComparison limit segment c := by
  induction h with
  | nil => cases hc
  | skip h more ih =>
    obtain ⟨before, segment, after, rfl, hsegment⟩ := ih hc
    exact ⟨before, segment, after ++ more, by rw [List.append_assoc], hsegment⟩
  | comparison h hlast ih =>
    rename_i tokens last cs d
    rcases List.mem_append.mp hc with hc | hc
    · obtain ⟨before, segment, after, rfl, hsegment⟩ := ih hc
      exact ⟨before, segment, after ++ last, by rw [List.append_assoc], hsegment⟩
    · obtain rfl := List.mem_singleton.mp hc
      exact ⟨tokens, last, [], by rw [List.append_nil], hlast⟩

/-- **The spans of the comparisons are in order**, if the tokens are. -/
theorem pairwise (h : Holds limit tokens cs)
    (htokens : tokens.Pairwise fun t u =>
      t.span.start < u.span.start ∧ t.span.stop ≤ u.span.start) :
    cs.Pairwise fun c d => c.span.start < d.span.start ∧ c.span.stop ≤ d.span.start := by
  induction h with
  | nil => exact .nil
  | skip h more ih => exact ih (List.pairwise_append.mp htokens).1
  | comparison h hlast ih =>
    obtain ⟨hbefore, -, hbetween⟩ := List.pairwise_append.mp htokens
    refine List.pairwise_append.mpr ⟨ih hbefore, List.pairwise_singleton _ _, fun c hc d hd => ?_⟩
    obtain rfl := List.mem_singleton.mp hd
    obtain ⟨front, segment, after, rfl, hsegment⟩ := h.exists_segment hc
    obtain ⟨t, ht, hstart⟩ := Option.map_eq_some_iff.mp hsegment.start
    obtain ⟨u, hu, hstop⟩ := Option.map_eq_some_iff.mp hsegment.stop
    obtain ⟨v, hv, hnext⟩ := Option.map_eq_some_iff.mp hlast.start
    have hmem : ∀ w ∈ segment, w ∈ front ++ segment ++ after := fun w hw =>
      List.mem_append_left _ (List.mem_append_right _ hw)
    have hfirst := hbetween t (hmem t (List.mem_of_head? ht)) v (List.mem_of_head? hv)
    have hend := hbetween u (hmem u (List.mem_of_getLast? hu)) v (List.mem_of_head? hv)
    rw [← hstart, ← hstop, ← hnext]
    exact ⟨hfirst.1, hend.2⟩

end Holds

end Query

end QueryFilter
