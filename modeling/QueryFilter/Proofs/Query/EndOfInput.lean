import QueryFilter.Proofs.Query.Refusal

/-!
# The end of input

The end of input is a token like the others, but for two things. No state takes it: it is never part
of anything, and whatever is open when it comes stays open. And it need not be written: where the
tokens end without it, it stands where the last of them ends.

So a run over tokens that are not the end of input goes through them one by one, and then looks at
what follows them. It makes no difference whether that is the end of input or nothing at all, and
what stands behind the end of input is never looked at.

## Main results

* `Query.State.next?_of_end` — no state takes the end of input
* `Query.State.run_withEnd` — a run is the same with and without the end of input
* `Query.ofTokens_eq_withEnd` — the end of input can be left out, and nothing after it is read
-/

namespace QueryFilter

namespace Query

variable {limit : Nat}

/-- The end of input makes no move, whatever is waited for. -/
theorem Mode.move?_of_end {token : Token} (h : token.kind = .endOfInput) (mode : Mode) :
    mode.move? token = none := by
  have hliteral : ∀ pending arrays, Move.ofLiteral? token pending arrays = none := by
    intro pending arrays
    rw [Move.ofLiteral?_of_ne (by rw [h]; decide), Literal.ofToken?, h]
    rfl
  cases mode with
  | literal pending arrays => exact hliteral pending arrays
  | firstItem pending outer =>
    rw [Mode.move?, if_neg (by rw [h]; decide)]
    exact hliteral pending ([] :: outer)
  | _ => simp [Mode.move?, h, CompareOp.ofToken?]

namespace State

/-- **No state takes the end of input.** -/
theorem next?_of_end {token : Token} (h : token.kind = .endOfInput) (s : State) :
    s.next? limit token = none := by
  rw [next?_eq_move, Mode.move?_of_end h]
  rfl

/-- **A run does not miss the end of input.** It goes through the tokens one by one, and then finds
the end of input, written or not; what is behind that is not read. -/
theorem run_withEnd {tokens : List Token} (h : ∀ t ∈ tokens, t.kind ≠ .endOfInput) (s : State)
    (start : Nat) (rest : List Token) :
    s.run limit start (Token.withEnd start tokens ++ rest) = s.run limit start tokens := by
  induction tokens generalizing s start with
  | nil =>
    rw [Token.withEnd_nil, List.singleton_append]
    exact if_pos rfl
  | cons token tokens ih =>
    obtain ⟨htoken, htokens⟩ := List.forall_mem_cons.mp h
    rw [Token.withEnd_cons, List.cons_append, run, if_neg htoken, run, if_neg htoken]
    cases s.step limit token with
    | error e => rfl
    | ok next => exact ih htokens next token.span.stop

end State

/-- **The end of input can be left out, and nothing after it is read.** Tokens without it give the
same query or the same error as with the end of input after them, where the last of them ends, and
anything behind it. It is only looked at: no state takes it. -/
theorem ofTokens_eq_withEnd (limit : Nat) (tokens rest : List Token)
    (h : ∀ t ∈ tokens, t.kind ≠ .endOfInput) :
    ofTokens limit tokens = ofTokens limit (Token.withEnd 0 tokens ++ rest) ∧
      ∀ (s : State) (token : Token), token.kind = .endOfInput → s.next? limit token = none :=
  ⟨(State.run_withEnd h State.initial 0 rest).symm, fun s _ hend => State.next?_of_end hend s⟩

/-- The tokens of `(a IN [1,` end within an array. What would complete them does not help behind the
end of input. -/
theorem ofTokens_eq_withEnd_in_array :
    let tokens : List Token := [⟨.leftParen, 0, 1⟩, ⟨.field "a", 1, 2⟩, ⟨.member, 3, 5⟩,
      ⟨.leftBracket, 6, 7⟩, ⟨.number (.int 1), 7, 8⟩, ⟨.comma, 8, 9⟩]
    let rest : List Token := [⟨.null, 9, 13⟩, ⟨.rightBracket, 13, 14⟩, ⟨.rightParen, 14, 15⟩]
    (∀ t ∈ tokens, t.kind ≠ .endOfInput) ∧
      ofTokens 2 tokens = ofTokens 2 (tokens ++ ⟨.endOfInput, .point 9⟩ :: rest) ∧
      ofTokens 2 tokens = .error (.unexpected (.point 9) "literal value" "end of input") := by
  intro tokens rest
  have hend : ∀ t ∈ tokens, t.kind ≠ .endOfInput := by decide
  exact ⟨hend, (ofTokens_eq_withEnd 2 tokens rest hend).1, rfl⟩

end Query

end QueryFilter
