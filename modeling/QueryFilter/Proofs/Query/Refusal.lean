import QueryFilter.Proofs.Outcome
import QueryFilter.Proofs.Query.Soundness
import QueryFilter.Token.Scan

/-!
# Syntax errors stand at the first bad token

The parser goes through the tokens once and stops at the first one that its state does not allow.
Two things make this the earliest place at which an error can be reported, and a place that nothing
after it can change:

* *Every state can be completed.* Whatever is open is closed without opening anything: a literal is
  given, then every array, negation and group ends. So the tokens before the bad one are the
  beginning of a query, and no error could have been reported before.
* *An error is local.* It depends on the tokens up to the bad one only.

A state that has opened one level too many can not be completed. It refuses the next token with an
error of its own, which is no syntax error.

The end of input counts as a token here. Where it is not written, it stands at the end of the last
token.

## Main definitions

* `Token.withEnd` — tokens with the end of input after them
* `Query.State.failure?` — the error of a state at a token, if it does not allow it
* `Query.State.Completes` — some tokens lead from a state to one in which nothing is open

## Main results

* `Query.State.run_eq_error_iff` — a run fails at the first token that is not allowed
* `Query.State.Valid.completes` — valid states can be completed
* `Query.unexpected_at_first_bad_token` — a syntax error is at the earliest possible token
-/

namespace QueryFilter

/-! ### The end of input as a token -/

namespace Token

/-- Tokens with the end of input after them: at the end of the last one, or at `start` if there is
none. -/
def withEnd (start : Nat) (tokens : List Token) : List Token :=
  tokens ++ [⟨.endOfInput, .point ((tokens.getLast?.map (·.span.stop)).getD start)⟩]

theorem withEnd_nil (start : Nat) : withEnd start [] = [⟨.endOfInput, .point start⟩] := rfl

theorem withEnd_cons (start : Nat) (token : Token) (tokens : List Token) :
    withEnd start (token :: tokens) = token :: withEnd token.span.stop tokens := by
  rw [withEnd, withEnd, List.getLast?_cons, List.cons_append]
  cases tokens.getLast? with
  | none => rfl
  | some last => rfl

theorem take_withEnd {start i : Nat} {tokens : List Token} {token : Token}
    (h : (withEnd start tokens)[i]? = some token) :
    (withEnd start tokens).take i = tokens.take i := by
  obtain ⟨hlt, -⟩ := List.getElem?_eq_some_iff.mp h
  rw [withEnd, List.length_append, List.length_singleton] at hlt
  exact List.take_append_of_le_length (Nat.le_of_lt_succ hlt)

end Token

namespace Query

namespace State

variable {limit : Nat}

/-! ### Errors -/

/-- The error of a state at a token that it does not allow. -/
def failure? (limit : Nat) (s : State) (token : Token) : Option SyntaxError :=
  if token.kind = .endOfInput then Except.fault? (s.finish limit token)
  else Except.fault? (s.step limit token)

theorem failure?_of_end {s : State} {token : Token} {e : SyntaxError}
    (h : token.kind = .endOfInput) :
    s.failure? limit token = some e ↔ s.finish limit token = .error e := by
  rw [failure?, if_pos h, Except.fault?_eq_some_iff]

theorem failure?_of_ne {s : State} {token : Token} {e : SyntaxError}
    (h : token.kind ≠ .endOfInput) :
    s.failure? limit token = some e ↔ s.step limit token = .error e := by
  rw [failure?, if_neg h, Except.fault?_eq_some_iff]

/-- The error is about the token. -/
theorem eq_refuse_of_failure? {s : State} {token : Token} {e : SyntaxError}
    (h : s.failure? limit token = some e) : e = s.refuse limit token := by
  by_cases hend : token.kind = .endOfInput
  · rw [failure?_of_end hend, finish] at h
    split at h
    · cases h
    · exact (Except.error.inj h).symm
  · rw [failure?_of_ne hend, step] at h
    split at h
    · cases h
    · exact (Except.error.inj h).symm

/-- The tokens before the one at index `i` lead to a state that does not allow that one. -/
def FailsAt (limit : Nat) (s : State) (tokens : List Token) (i : Nat) (e : SyntaxError) : Prop :=
  ∃ token last, tokens[i]? = some token ∧ (∀ t ∈ tokens.take i, t.kind ≠ .endOfInput) ∧
    s.feed? limit (tokens.take i) = some last ∧ last.failure? limit token = some e

theorem failsAt_zero {s : State} {token : Token} {tokens : List Token} {e : SyntaxError} :
    s.FailsAt limit (token :: tokens) 0 e ↔ s.failure? limit token = some e := by
  simp [FailsAt, feed?]

theorem failsAt_succ {s : State} {token : Token} {tokens : List Token} {i : Nat}
    {e : SyntaxError} : s.FailsAt limit (token :: tokens) (i + 1) e ↔
      token.kind ≠ .endOfInput ∧
        ∃ next, s.next? limit token = some next ∧ next.FailsAt limit tokens i e := by
  simp only [FailsAt, List.getElem?_cons_succ, List.take_succ_cons, List.forall_mem_cons, feed?,
    Option.bind_eq_some_iff]
  constructor
  · rintro ⟨bad, last, hbad, ⟨hkind, hend⟩, ⟨next, hnext, hlast⟩, hfail⟩
    exact ⟨hkind, next, hnext, bad, last, hbad, hend, hlast, hfail⟩
  · rintro ⟨hkind, next, hnext, bad, last, hbad, hend, hlast, hfail⟩
    exact ⟨bad, last, hbad, ⟨hkind, hend⟩, ⟨next, hnext, hlast⟩, hfail⟩

/-- The first token is the bad one, or it leads to a state that fails later. -/
theorem exists_failsAt_cons {s : State} {token : Token} {tokens : List Token} {e : SyntaxError} :
    (∃ i, s.FailsAt limit (token :: tokens) i e) ↔ s.failure? limit token = some e ∨
      token.kind ≠ .endOfInput ∧
        ∃ next, s.next? limit token = some next ∧ ∃ i, next.FailsAt limit tokens i e := by
  constructor
  · rintro ⟨_ | i, hfails⟩
    · exact .inl (failsAt_zero.mp hfails)
    · obtain ⟨hend, next, hnext, hfails⟩ := failsAt_succ.mp hfails
      exact .inr ⟨hend, next, hnext, i, hfails⟩
  · rintro (hfail | ⟨hend, next, hnext, i, hfails⟩)
    · exact ⟨0, failsAt_zero.mpr hfail⟩
    · exact ⟨i + 1, failsAt_succ.mpr ⟨hend, next, hnext, hfails⟩⟩

/-- **An error is local.** It depends on the tokens up to the bad one only. -/
theorem FailsAt.congr {s : State} {tokens others : List Token} {i : Nat} {e : SyntaxError}
    (h : s.FailsAt limit tokens i e) (hsame : ∀ j ≤ i, others[j]? = tokens[j]?) :
    s.FailsAt limit others i e := by
  obtain ⟨token, last, htoken, hend, hfeed, hfail⟩ := h
  have htake : others.take i = tokens.take i := by
    refine List.ext_getElem? fun j => ?_
    by_cases hj : j < i
    · rw [List.getElem?_take_of_lt hj, List.getElem?_take_of_lt hj, hsame j (Nat.le_of_lt hj)]
    · rw [List.getElem?_take_eq_none (Nat.le_of_not_lt hj),
        List.getElem?_take_eq_none (Nat.le_of_not_lt hj)]
  refine ⟨token, last, ?_, ?_, ?_, hfail⟩
  · rw [hsame i (Nat.le_refl i), htoken]
  · rwa [htake]
  · rwa [htake]

/-- **A run fails at the first token that is not allowed.** -/
theorem run_eq_error_iff {s : State} {stop : Nat} {tokens : List Token} {e : SyntaxError} :
    s.run limit stop tokens = .error e ↔ ∃ i, s.FailsAt limit (Token.withEnd stop tokens) i e := by
  induction tokens generalizing s stop with
  | nil =>
    rw [Token.withEnd_nil, exists_failsAt_cons, failure?_of_end rfl, run]
    simp
  | cons token tokens ih =>
    rw [Token.withEnd_cons, exists_failsAt_cons, run]
    by_cases hend : token.kind = .endOfInput
    · rw [if_pos hend, failure?_of_end hend]
      simp [hend]
    · rw [if_neg hend, failure?_of_ne hend, step]
      cases hnext : s.next? limit token with
      | none => simp
      | some next => simp [hend, ih]

/-! ### Completions -/

/-- Some tokens lead from the state to one in which nothing is open. -/
def Completes (limit : Nat) (s : State) : Prop :=
  ∃ kinds : List TokenKind, .endOfInput ∉ kinds ∧
    ∃ last, s.feed? limit (kinds.map TokenKind.unplaced) = some last ∧
      last.mode = .afterOperand ∧ last.frames = []

theorem Completes.of_next? {s next : State} (kind : TokenKind)
    (hnext : s.next? limit kind.unplaced = some next) (hkind : kind ≠ .endOfInput)
    (h : next.Completes limit) : s.Completes limit := by
  obtain ⟨kinds, hend, last, hfeed, hlast⟩ := h
  refine ⟨kind :: kinds, ?_, last, ?_, hlast⟩
  · simpa [hend] using hkind.symm
  · rw [List.map_cons, feed?, hnext, Option.bind_some, hfeed]

/-- After an operand, every group that is open can be closed. -/
theorem completes_settle (chain : Chain) (q : Query) (frames : List Frame) :
    (settle chain q frames).Completes limit := by
  induction frames generalizing chain q with
  | nil => exact ⟨[], List.not_mem_nil, _, rfl, rfl, rfl⟩
  | cons frame frames ih =>
    cases frame with
    | negation => exact ih chain (.not q)
    | group outer => exact .of_next? .rightParen rfl (by decide) (ih outer _)

/-- After a literal, every array that is open can be closed. -/
theorem completes_deliver (s : State) (pending : Pending) (value : Literal) (stop : Nat)
    (arrays : List (List Literal)) : (s.deliver pending value stop arrays).Completes limit := by
  induction arrays generalizing s value stop with
  | nil => exact completes_settle _ _ _
  | cons items outer ih => exact .of_next? .rightBracket rfl (by decide) (ih _ _ _)

/-- **Every valid state can be completed.** -/
theorem Valid.completes {s : State} (h : s.Valid limit) : s.Completes limit := by
  have hsettled := h.settled
  have hmode := h.mode
  obtain ⟨frames, chain, mode⟩ := s
  cases mode with
  | start | operand =>
    refine .of_next? (.field "a") rfl (by decide) ?_
    exact .of_next? .present rfl (by decide) (completes_settle _ _ _)
  | operator field start | negatedOperator field start =>
    exact .of_next? .present rfl (by decide) (completes_settle _ _ _)
  | literal pending arrays =>
    exact .of_next? .null rfl (by decide) (completes_deliver _ _ _ _ _)
  | firstItem pending outer =>
    exact .of_next? .rightBracket rfl (by decide) (completes_deliver _ _ _ _ _)
  | afterItem pending items outer =>
    exact .of_next? .rightBracket rfl (by decide) (completes_deliver _ _ _ _ _)
  | afterOperand =>
    -- No negation waits for an operand that has ended, so a group ends next or nothing is open.
    rcases frames_cases (hsettled rfl).2 with hnil | ⟨outer, rest, hgroup⟩
    · exact ⟨[], List.not_mem_nil, _, rfl, rfl, hnil⟩
    · subst hgroup
      exact .of_next? .rightParen rfl (by decide) (completes_settle _ _ _)
  | tooDeep => exact hmode.elim

end State

/-! ### Syntax errors -/

/-- **A syntax error is reported at the earliest possible token.** Its place and what it says was
found are those of a token, which may be the end of input. The tokens before that one can be
continued to a query within the same limit, and all tokens that agree up to and including it have
the same error. -/
theorem unexpected_at_first_bad_token (limit : Nat) (tokens : List Token) (span : Span)
    (expected found : String)
    (h : ofTokens limit tokens = .error (.unexpected span expected found)) :
    ∃ i token, (Token.withEnd 0 tokens)[i]? = some token ∧ token.span = span ∧
      token.kind.describe = found ∧
      (∃ more q, ofTokens limit (tokens.take i ++ more) = .ok q) ∧
      ∀ others : List Token,
        (∀ j ≤ i, (Token.withEnd 0 others)[j]? = (Token.withEnd 0 tokens)[j]?) →
          ofTokens limit others = .error (.unexpected span expected found) := by
  obtain ⟨i, hfails⟩ := State.run_eq_error_iff.mp h
  have hlocal : ∀ others : List Token,
      (∀ j ≤ i, (Token.withEnd 0 others)[j]? = (Token.withEnd 0 tokens)[j]?) →
        ofTokens limit others = .error (.unexpected span expected found) := by
    intro others hsame
    exact State.run_eq_error_iff.mpr ⟨i, hfails.congr hsame⟩
  obtain ⟨token, last, htoken, hend, hfeed, hfail⟩ := hfails
  have hrefuse := State.eq_refuse_of_failure? hfail
  rw [Token.take_withEnd htoken] at hend hfeed
  have hmode : last.mode ≠ .tooDeep := by
    intro hdeep
    rw [State.refuse, hdeep] at hrefuse
    cases hrefuse
  obtain ⟨hspan, hfound⟩ : token.span = span ∧ token.kind.describe = found := by
    rw [State.refuse] at hrefuse
    split at hrefuse
    · cases hrefuse
    · cases hrefuse
      exact ⟨rfl, rfl⟩
  obtain ⟨hvalid, -⟩ := State.feed?_advances (State.valid_initial limit) hfeed hmode
  obtain ⟨kinds, hkinds, final, hfinal, hdone, hclosed⟩ := hvalid.completes
  refine ⟨i, token, htoken, hspan, hfound, ⟨kinds.map TokenKind.unplaced, final.chain.close, ?_⟩,
    hlocal⟩
  have hends : ∀ t ∈ tokens.take i ++ kinds.map TokenKind.unplaced, t.kind ≠ .endOfInput := by
    intro t ht
    rcases List.mem_append.mp ht with ht | ht
    · exact hend t ht
    · obtain ⟨kind, hkind, rfl⟩ := List.mem_map.mp ht
      rintro rfl
      exact hkinds hkind
  have hlast : State.initial.feed? limit (tokens.take i ++ kinds.map TokenKind.unplaced) =
      some final := by
    rw [State.feed?_append, hfeed, Option.bind_some, hfinal]
  have hok : ofTokens limit (tokens.take i ++ kinds.map TokenKind.unplaced ++ []) =
      .ok final.chain.close :=
    (State.run_eq_ok_iff hends (by simp)).mpr ⟨final, hlast, hdone, hclosed, rfl⟩
  rwa [List.append_nil] at hok

/-- In `(a = 1 AND AND b = [` the second `AND` is refused, after which the array and the group stay
open. -/
theorem unexpected_at_second_and :
    ∃ tokens, Token.ofText "(a = 1 AND AND b = [" = .ok tokens ∧
      ofTokens 1 tokens = .error (.unexpected ⟨11, 14⟩ "field name, `NOT` or `(`" "`AND`") ∧
      ∃ i token, (Token.withEnd 0 tokens)[i]? = some token ∧ token.span = ⟨11, 14⟩ ∧
        ∃ more q, ofTokens 1 (tokens.take i ++ more) = .ok q := by
  obtain ⟨tokens, htokens, hfault⟩ := Except.exists_of_toOption_any
    (x := Token.ofText "(a = 1 AND AND b = [")
    (p := fun tokens => Except.fault? (ofTokens 1 tokens) =
      some (.unexpected ⟨11, 14⟩ "field name, `NOT` or `(`" "`AND`")) (by decide +kernel)
  have herror := Except.fault?_eq_some_iff.mp (of_decide_eq_true hfault)
  obtain ⟨i, token, htoken, hspan, -, hmore, -⟩ :=
    unexpected_at_first_bad_token 1 tokens _ _ _ herror
  exact ⟨tokens, htokens, herror, i, token, htoken, hspan, hmore⟩

end Query

end QueryFilter
