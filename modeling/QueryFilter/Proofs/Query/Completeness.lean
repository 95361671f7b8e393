import QueryFilter.Proofs.Query.Soundness

/-!
# The parser accepts exactly the grammar

Whatever the grammar allows, the parser reads, and it returns the tree that was meant. The tokens of
a tree are followed from left to right; since reading does not look at places, it is enough to do so
for tokens without one, and then every state on the way is known exactly.

Each part of a tree is read in any surroundings: a literal inside the arrays that are open, an
operand inside the negations that wait for it, a chain inside its group. An operand of `AND` may not
be a chain, and an operand of `OR` may be a chain of `AND`, so there are three statements about
queries, one for each level of precedence, and they are proved together.

## Main results

* `Query.State.feed?_literal` — the tokens of a literal deliver it
* `Query.State.reads_query` — the tokens of a canonical query lead to its tree
* `Query.ofTokens_of_spells` — a tree that the grammar allows is returned, up to places
* `Query.ofTokens_eq_ok_iff_spells` — the parser accepts exactly the grammar
-/

namespace QueryFilter

namespace Query

namespace State

variable {limit : Nat}

/-! ### Literals -/

/-- Delivering a literal ends the current mode, whatever it is. -/
theorem deliver_mode (frames : List Frame) (chain : Chain) (mode mode' : Mode) (pending : Pending)
    (value : Literal) (stop : Nat) (arrays : List (List Literal)) :
    (⟨frames, chain, mode⟩ : State).deliver pending value stop arrays =
      (⟨frames, chain, mode'⟩ : State).deliver pending value stop arrays := by
  cases arrays <;> rfl

theorem readLiteral?_mode (frames : List Frame) (chain : Chain) (mode mode' : Mode) (token : Token)
    (pending : Pending) (arrays : List (List Literal)) :
    (⟨frames, chain, mode⟩ : State).readLiteral? limit token pending arrays =
      (⟨frames, chain, mode'⟩ : State).readLiteral? limit token pending arrays := by
  by_cases hkind : token.kind = .leftBracket
  · rw [readLiteral?, readLiteral?, hkind]
    rfl
  · rw [readLiteral?_of_ne hkind, readLiteral?_of_ne hkind,
      funext fun value => deliver_mode frames chain mode mode' pending value _ arrays]

/-- The tokens of a literal deliver it, in any surroundings that leave room for it. -/
def ReadsLiteral (limit : Nat) (v : Literal) : Prop :=
  ∀ (frames : List Frame) (chain : Chain) (pending : Pending) (arrays : List (List Literal)),
    frames.length + arrays.length + v.nesting ≤ limit →
      (⟨frames, chain, .literal pending arrays⟩ : State).feed? limit
          (v.render.map TokenKind.unplaced) =
        some ((⟨frames, chain, .literal pending arrays⟩ : State).deliver pending v.eraseSpans 0
          arrays)

/-- A literal does not start with the end of an array. -/
theorem render_eq_cons (v : Literal) :
    ∃ kind kinds, v.render = kind :: kinds ∧ kind ≠ .rightBracket := by
  cases v with
  | array items => exact ⟨_, _, Literal.render_array items, by decide⟩
  | _ => exact ⟨_, [], rfl, by simp⟩

/-- The first item of an array is read like any other. -/
theorem feed?_firstItem (v : Literal) (frames : List Frame) (chain : Chain) (pending : Pending)
    (outer : List (List Literal)) :
    (⟨frames, chain, .firstItem pending outer⟩ : State).feed? limit
        (v.render.map TokenKind.unplaced) =
      (⟨frames, chain, .literal pending ([] :: outer)⟩ : State).feed? limit
        (v.render.map TokenKind.unplaced) := by
  obtain ⟨kind, kinds, hrender, hkind⟩ := render_eq_cons v
  have hkind' : kind.unplaced.kind ≠ .rightBracket := hkind
  rw [hrender, List.map_cons, feed?, feed?, next?_firstItem_of_ne hkind',
    readLiteral?_mode _ _ _ (.literal pending ([] :: outer))]
  rfl

/-- The items of an array after those that have been read, and its end. -/
theorem feed?_items {vs : List Literal} (hvs : ∀ v ∈ vs, ReadsLiteral limit v)
    (frames : List Frame) (chain : Chain) (pending : Pending) (done : List Literal)
    (outer : List (List Literal))
    (hfit : ∀ v ∈ vs, frames.length + (outer.length + 1) + v.nesting ≤ limit) :
    (⟨frames, chain, .afterItem pending done outer⟩ : State).feed? limit
        ((vs.flatMap (fun v : Literal => TokenKind.comma :: v.render) ++
          [TokenKind.rightBracket]).map
          TokenKind.unplaced) =
      some ((⟨frames, chain, .afterItem pending done outer⟩ : State).deliver pending
        (.array (done.reverse ++ vs.map Literal.eraseSpans)) 0 outer) := by
  induction vs generalizing done with
  | nil =>
    rw [List.map_nil, List.append_nil]
    rfl
  | cons v vs ih =>
    obtain ⟨hv, hvs⟩ := List.forall_mem_cons.mp hvs
    obtain ⟨hfitv, hfit⟩ := List.forall_mem_cons.mp hfit
    have hitem := hv frames chain pending (done :: outer) hfitv
    rw [List.flatMap_cons, List.append_assoc, List.map_append, feed?_append, List.map_cons]
    change (State.feed? limit ⟨frames, chain, .literal pending (done :: outer)⟩ _).bind _ = _
    rw [hitem, Option.bind_some]
    change State.feed? limit ⟨frames, chain, .afterItem pending (v.eraseSpans :: done) outer⟩ _ = _
    rw [ih hvs (v.eraseSpans :: done) hfit, List.reverse_cons, List.append_assoc,
      List.singleton_append, List.map_cons]
    exact congrArg some (deliver_mode _ _ _ _ _ _ _ _)

/-- The tokens of a literal deliver it. -/
theorem feed?_literal (v : Literal) : ReadsLiteral limit v := by
  induction v with
  | array items ih =>
    intro frames chain pending arrays hfit
    have hpos : 0 < (Literal.array items).nesting := by rw [Literal.nesting]; omega
    have hitems : ∀ v ∈ items, frames.length + (arrays.length + 1) + v.nesting ≤ limit := by
      have hle : (Literal.array items).nesting ≤
          limit - (frames.length + arrays.length + 1) + 1 := by omega
      intro v hv
      have := Literal.nesting_array_le_iff.mp hle v hv
      omega
    rw [Literal.render_array, List.cons_append, List.map_cons, feed?]
    change (some (State.deepen _ limit (frames.length + arrays.length) _)).bind _ = _
    rw [deepen_of_lt (by omega), Option.bind_some]
    cases items with
    | nil => exact congrArg some (deliver_mode _ _ _ _ _ _ _ _)
    | cons v vs =>
      obtain ⟨hv, hvs⟩ := List.forall_mem_cons.mp ih
      obtain ⟨hfitv, hfitvs⟩ := List.forall_mem_cons.mp hitems
      have hfirst := hv frames chain pending ([] :: arrays) hfitv
      rw [List.map_cons, intercalate_cons, List.flatMap_map, List.append_assoc, List.map_append,
        feed?_append, feed?_firstItem, hfirst, Option.bind_some]
      change State.feed? limit ⟨frames, chain, .afterItem pending [v.eraseSpans] arrays⟩ _ = _
      rw [Literal.eraseSpans_array]
      exact (feed?_items hvs frames chain pending [v.eraseSpans] arrays hfitvs).trans
        (congrArg some (deliver_mode _ _ _ _ _ _ _ _))
  | _ =>
    intro frames chain pending arrays _
    rfl

/-! ### Queries -/

/-- The tokens of an operand settle it, inside any negations that wait for it. -/
def ReadsOperand (limit : Nat) (q : Query) : Prop :=
  ∀ (frames : List Frame) (chain : Chain), frames.length + q.nesting ≤ limit →
    (⟨frames, chain, .operand⟩ : State).feed? limit (q.render.map TokenKind.unplaced) =
      some (settle chain q.eraseSpans frames)

/-- The tokens of an operand of `OR` are the conjuncts of the chain. -/
def ReadsConjunction (limit : Nat) (q : Query) : Prop :=
  ∀ (frames : List Frame) (disjuncts : List Query), chainDepth frames = frames.length →
    frames.length + q.nesting ≤ limit → ∃ conjuncts,
      (⟨frames, ⟨disjuncts, []⟩, .operand⟩ : State).feed? limit
          (q.render.map TokenKind.unplaced) =
        some ⟨frames, ⟨disjuncts, conjuncts⟩, .afterOperand⟩ ∧
      conjunction conjuncts.reverse = q.eraseSpans

/-- The tokens of a whole query are a chain that closes to it. -/
def ReadsQuery (limit : Nat) (q : Query) : Prop :=
  ∀ frames : List Frame, chainDepth frames = frames.length →
    frames.length + q.nesting ≤ limit → ∃ chain,
      (⟨frames, .empty, .operand⟩ : State).feed? limit (q.render.map TokenKind.unplaced) =
        some ⟨frames, chain, .afterOperand⟩ ∧
      chain.close = q.eraseSpans

theorem ReadsOperand.readsConjunction {q : Query} (h : ReadsOperand limit q) :
    ReadsConjunction limit q := by
  intro frames disjuncts hframes hfit
  refine ⟨[q.eraseSpans], ?_, rfl⟩
  rw [h frames _ hfit, settle_of_chainDepth hframes]
  rfl

theorem ReadsConjunction.readsQuery {q : Query} (h : ReadsConjunction limit q) :
    ReadsQuery limit q := by
  intro frames hframes hfit
  obtain ⟨conjuncts, hfeed, hclose⟩ := h frames [] hframes hfit
  exact ⟨⟨[], conjuncts⟩, hfeed, hclose⟩

/-! #### Operands -/

theorem feed?_comparison {c : Comparison} (hc : c.isCanonical) :
    ReadsOperand limit (.comparison c) := by
  intro frames chain hfit
  obtain ⟨field, op, value, span⟩ := c
  obtain ⟨hfield, hop⟩ := Bool.and_eq_true_iff.mp hc
  have hvalue := feed?_literal value frames chain ⟨field, 0, op⟩ [] hfit
  change (State.feed? limit ⟨frames, chain, .operator (.ofDotted field.dotted) 0⟩ _) = _
  rw [FieldPath.ofDotted_dotted hfield]
  cases op with
  | present =>
    cases value with
    | boolean b => cases b <;> rfl
    | _ => cases hop
  | _ => exact hvalue

theorem ReadsOperand.not {q : Query} (h : ReadsOperand limit q) : ReadsOperand limit (.not q) := by
  intro frames chain hfit
  rw [nesting] at hfit
  rw [render, List.map_cons, feed?]
  change (some (State.deepen _ limit frames.length _)).bind _ = _
  rw [deepen_of_lt (by omega), Option.bind_some]
  exact h (.negation :: frames) chain (by rw [List.length_cons]; omega)

theorem ReadsQuery.group {q : Query} (h : ReadsQuery limit q) :
    ReadsOperand limit (.group q) := by
  intro frames chain hfit
  rw [nesting] at hfit
  obtain ⟨inner, hfeed, hclose⟩ := h (.group chain :: frames) rfl
    (by rw [List.length_cons]; omega)
  rw [render, List.cons_append, List.map_cons, feed?]
  change (some (State.deepen _ limit frames.length _)).bind _ = _
  rw [deepen_of_lt (by omega), Option.bind_some, List.map_append, feed?_append, hfeed,
    Option.bind_some]
  change some (settle chain (.group inner.close) frames) = _
  rw [hclose]
  rfl

/-! #### Chains -/

/-- Further operands of `AND`. -/
theorem feed?_conjuncts {qs : List Query} (hqs : ∀ q ∈ qs, ReadsOperand limit q)
    {frames : List Frame} (hframes : chainDepth frames = frames.length)
    (hfit : ∀ q ∈ qs, frames.length + q.nesting ≤ limit) (disjuncts conjuncts : List Query) :
    (⟨frames, ⟨disjuncts, conjuncts⟩, .afterOperand⟩ : State).feed? limit
        ((qs.flatMap (fun q => TokenKind.and :: q.render)).map TokenKind.unplaced) =
      some ⟨frames, ⟨disjuncts, (qs.map Query.eraseSpans).reverse ++ conjuncts⟩,
        .afterOperand⟩ := by
  induction qs generalizing conjuncts with
  | nil => rfl
  | cons q qs ih =>
    obtain ⟨hq, hqs⟩ := List.forall_mem_cons.mp hqs
    obtain ⟨hfitq, hfit⟩ := List.forall_mem_cons.mp hfit
    rw [List.flatMap_cons, List.map_append, feed?_append]
    change (State.feed? limit ⟨frames, ⟨disjuncts, conjuncts⟩, .operand⟩ _).bind _ = _
    rw [hq frames _ hfitq, settle_of_chainDepth hframes, Option.bind_some]
    change State.feed? limit ⟨frames, ⟨disjuncts, q.eraseSpans :: conjuncts⟩, .afterOperand⟩ _ = _
    rw [ih hqs hfit, List.map_cons, List.reverse_cons, List.append_assoc, List.singleton_append]

/-- A chain has a first operand and a second one. -/
theorem exists_cons_cons {operands : List Query} (h : 2 ≤ operands.length) :
    ∃ q r more, operands = q :: r :: more := by
  rcases operands with _ | ⟨q, _ | ⟨r, more⟩⟩
  · exact absurd h (by decide)
  · exact absurd h (Nat.lt_irrefl 1)
  · exact ⟨q, r, more, rfl⟩

theorem reads_and {operands : List Query} (hlen : 2 ≤ operands.length)
    (h : ∀ q ∈ operands, ReadsOperand limit q) : ReadsConjunction limit (.and operands) := by
  intro frames disjuncts hframes hfit
  rw [nesting] at hfit
  have hroom : ∀ q ∈ operands, frames.length + q.nesting ≤ limit := by
    intro q hq
    have := maxNesting_le_iff.mp (Nat.le_refl _) q hq
    omega
  obtain ⟨q, r, more, rfl⟩ := exists_cons_cons hlen
  obtain ⟨hq, hmore⟩ := List.forall_mem_cons.mp h
  obtain ⟨hroomq, hroom⟩ := List.forall_mem_cons.mp hroom
  refine ⟨((r :: more).map Query.eraseSpans).reverse ++ [q.eraseSpans], ?_, ?_⟩
  · rw [render_and, List.map_cons, intercalate_cons, List.flatMap_map, List.map_append,
      feed?_append, hq frames _ hroomq, settle_of_chainDepth hframes, Option.bind_some]
    exact feed?_conjuncts hmore hframes hroom disjuncts [q.eraseSpans]
  · rw [List.reverse_append, List.reverse_reverse, eraseSpans_and]
    rfl

/-- Further operands of `OR`. -/
theorem feed?_disjuncts {qs : List Query} (hqs : ∀ q ∈ qs, ReadsConjunction limit q)
    {frames : List Frame} (hframes : chainDepth frames = frames.length)
    (hfit : ∀ q ∈ qs, frames.length + q.nesting ≤ limit) (chain : Chain) :
    ∃ last : Chain, (⟨frames, chain, .afterOperand⟩ : State).feed? limit
        ((qs.flatMap (fun q => TokenKind.or :: q.render)).map TokenKind.unplaced) =
      some ⟨frames, last, .afterOperand⟩ ∧
      last.split.disjuncts.reverse = chain.split.disjuncts.reverse ++ qs.map Query.eraseSpans := by
  induction qs generalizing chain with
  | nil => exact ⟨chain, rfl, (List.append_nil _).symm⟩
  | cons q qs ih =>
    obtain ⟨hq, hqs⟩ := List.forall_mem_cons.mp hqs
    obtain ⟨hfitq, hfit⟩ := List.forall_mem_cons.mp hfit
    obtain ⟨conjuncts, hfeed, hclose⟩ := hq frames chain.split.disjuncts hframes hfitq
    obtain ⟨last, hlast, hdisjuncts⟩ := ih hqs hfit ⟨chain.split.disjuncts, conjuncts⟩
    refine ⟨last, ?_, ?_⟩
    · rw [List.flatMap_cons, List.map_append, feed?_append]
      change (State.feed? limit ⟨frames, ⟨chain.split.disjuncts, []⟩, .operand⟩ _).bind _ = _
      rw [hfeed, Option.bind_some, hlast]
    · rw [hdisjuncts, Chain.split, List.reverse_cons, hclose, List.append_assoc,
        List.singleton_append, List.map_cons]

theorem reads_or {operands : List Query} (hlen : 2 ≤ operands.length)
    (h : ∀ q ∈ operands, ReadsConjunction limit q) : ReadsQuery limit (.or operands) := by
  intro frames hframes hfit
  rw [nesting] at hfit
  have hroom : ∀ q ∈ operands, frames.length + q.nesting ≤ limit := by
    intro q hq
    have := maxNesting_le_iff.mp (Nat.le_refl _) q hq
    omega
  obtain ⟨q, r, more, rfl⟩ := exists_cons_cons hlen
  obtain ⟨hq, hmore⟩ := List.forall_mem_cons.mp h
  obtain ⟨hroomq, hroom⟩ := List.forall_mem_cons.mp hroom
  obtain ⟨conjuncts, hfeed, hclose⟩ := hq frames [] hframes hroomq
  obtain ⟨last, hlast, hdisjuncts⟩ := feed?_disjuncts hmore hframes hroom ⟨[], conjuncts⟩
  refine ⟨last, ?_, ?_⟩
  · rw [render_or, List.map_cons, intercalate_cons, List.flatMap_map, List.map_append,
      feed?_append]
    change (State.feed? limit ⟨frames, ⟨[], []⟩, .operand⟩ _).bind _ = _
    rw [hfeed, Option.bind_some]
    exact hlast
  · rw [Chain.close, hdisjuncts, Chain.split, hclose, eraseSpans_or]
    rfl

/-! #### All queries -/

/-- The tokens of a canonical query lead to its tree, at every level of precedence that it has. -/
theorem reads_query {q : Query} (hq : q.isCanonical) :
    (q.isOperand → ReadsOperand limit q) ∧
      (q.isDisjunction = false → ReadsConjunction limit q) ∧ ReadsQuery limit q := by
  -- An operand is a conjunction, and a conjunction is a query.
  have of_operand : ∀ q, ReadsOperand limit q → (q.isOperand → ReadsOperand limit q) ∧
      (q.isDisjunction = false → ReadsConjunction limit q) ∧ ReadsQuery limit q :=
    fun q h => ⟨fun _ => h, fun _ => h.readsConjunction, h.readsConjunction.readsQuery⟩
  induction q with
  | comparison c => exact of_operand _ (feed?_comparison hq)
  | and operands ih =>
    obtain ⟨hlen, hop, hcan⟩ := isCanonical_and_iff.mp hq
    have hand := reads_and hlen fun q hmem => (ih q hmem (hcan q hmem)).1 (hop q hmem)
    exact ⟨fun h => (Bool.false_ne_true h).elim, fun _ => hand, hand.readsQuery⟩
  | or operands ih =>
    obtain ⟨hlen, hdis, hcan⟩ := isCanonical_or_iff.mp hq
    have hor := reads_or hlen fun q hmem => (ih q hmem (hcan q hmem)).2.1 (hdis q hmem)
    exact ⟨fun h => (Bool.false_ne_true h).elim, fun h => (Bool.false_ne_true h.symm).elim, hor⟩
  | not operand ih =>
    obtain ⟨hop, hcan⟩ := Bool.and_eq_true_iff.mp hq
    exact of_operand _ ((ih hcan).1 hop).not
  | group content ih => exact of_operand _ (ih hq).2.2.group

end State

/-! ### The parser and the grammar -/

/-- **Soundness.** A tree that is returned is allowed by the grammar. -/
theorem spells_of_ofTokens {limit : Nat} {tokens tail : List Token} {q : Query}
    (hend : ∀ t ∈ tokens, t.kind ≠ .endOfInput) (htail : ∀ t ∈ tail.head?, t.kind = .endOfInput)
    (h : ofTokens limit (tokens ++ tail) = .ok q) : Spells limit (tokens.map Token.kind) q := by
  obtain ⟨last, hfeed, hmode, hframes, rfl⟩ := (State.run_eq_ok_iff hend htail).mp h
  exact State.spells_of_feed? hfeed hmode hframes

/-- **Completeness.** A tree that the grammar allows is returned, up to places. -/
theorem ofTokens_of_spells {limit : Nat} {tokens tail : List Token} {q : Query}
    (hend : ∀ t ∈ tokens, t.kind ≠ .endOfInput) (htail : ∀ t ∈ tail.head?, t.kind = .endOfInput)
    (h : Spells limit (tokens.map Token.kind) q) :
    ∃ found, ofTokens limit (tokens ++ tail) = .ok found ∧ found.eraseSpans = q.eraseSpans := by
  have hroom : ([] : List Frame).length + q.nesting ≤ limit := by
    rw [List.length_nil, Nat.zero_add]
    exact h.nesting_le
  obtain ⟨chain, hfeed, hclose⟩ := (State.reads_query h.canonical).2.2 [] rfl hroom
  -- The same tokens without their places are read from the start.
  have hbare : ofTokens limit ((tokens ++ tail).map Token.eraseSpan) = .ok q.eraseSpans := by
    rw [List.map_append]
    refine (State.run_eq_ok_iff ?_ ?_).mpr ⟨⟨[], chain, .afterOperand⟩, ?_, rfl, rfl, hclose⟩
    · intro t ht
      obtain ⟨u, hu, rfl⟩ := List.mem_map.mp ht
      exact hend u hu
    · intro t ht
      rw [List.head?_map, Option.mem_def, Option.map_eq_some_iff] at ht
      obtain ⟨u, hu, rfl⟩ := ht
      exact htail u hu
    · rw [Token.map_eraseSpan, ← h.render_eq]
      cases hkinds : q.render with
      | nil =>
        rw [hkinds] at hfeed
        cases hfeed
      | cons kind kinds =>
        rw [hkinds] at hfeed
        exact hfeed
  rw [ofTokens_map_eraseSpan] at hbare
  cases hfound : ofTokens limit (tokens ++ tail) with
  | error e =>
    rw [hfound] at hbare
    cases hbare
  | ok found =>
    rw [hfound] at hbare
    exact ⟨found, rfl, Except.ok.inj hbare⟩

/-- **Unambiguity.** Tokens spell at most one canonical tree, up to places: the parser would return
both. -/
theorem eraseSpans_eq_of_render_eq {q r : Query} (hq : q.isCanonical) (hr : r.isCanonical)
    (h : q.render = r.render) : q.eraseSpans = r.eraseSpans := by
  have hread : ∀ p : Query, p.isCanonical → p.nesting ≤ max q.nesting r.nesting → ∃ chain : Chain,
      State.feed? (max q.nesting r.nesting) ⟨[], .empty, .operand⟩
        (p.render.map TokenKind.unplaced) = some ⟨[], chain, .afterOperand⟩ ∧
      chain.close = p.eraseSpans :=
    fun p hp hle => (State.reads_query hp).2.2 [] rfl (by rw [List.length_nil]; omega)
  obtain ⟨chain, hfeed, hclose⟩ := hread q hq (Nat.le_max_left _ _)
  obtain ⟨chain', hfeed', hclose'⟩ := hread r hr (Nat.le_max_right _ _)
  rw [h, hfeed', Option.some.injEq, State.mk.injEq] at hfeed
  rw [← hclose, ← hclose', hfeed.2.1]

/-- **The parser accepts exactly the grammar.** Tokens before the end of input, which may be written
or not, are accepted if and only if they spell a canonical tree that is not nested too deep; the
tree that is returned is such a tree, and it is the only one up to places. -/
theorem ofTokens_eq_ok_iff_spells (limit : Nat) (tokens tail : List Token)
    (hend : ∀ t ∈ tokens, t.kind ≠ .endOfInput)
    (htail : tail = [] ∨ ∃ span, tail = [⟨.endOfInput, span⟩]) :
    ((∃ q, ofTokens limit (tokens ++ tail) = .ok q) ↔
        ∃ q, Spells limit (tokens.map Token.kind) q) ∧
      ∀ q, ofTokens limit (tokens ++ tail) = .ok q →
        Spells limit (tokens.map Token.kind) q ∧
          ∀ r : Query, r.isCanonical → r.render = tokens.map Token.kind →
            r.eraseSpans = q.eraseSpans := by
  have htail' : ∀ t ∈ tail.head?, t.kind = .endOfInput := by
    rcases htail with rfl | ⟨span, rfl⟩
    · simp
    · simp
  constructor
  · constructor
    · rintro ⟨q, hq⟩
      exact ⟨q, spells_of_ofTokens hend htail' hq⟩
    · rintro ⟨q, hq⟩
      obtain ⟨found, hfound, -⟩ := ofTokens_of_spells hend htail' hq
      exact ⟨found, hfound⟩
  · intro q hq
    have hspells := spells_of_ofTokens hend htail' hq
    refine ⟨hspells, ?_⟩
    intro r hcan hrender
    have hsame : r.render = q.render := hrender.trans hspells.render_eq.symm
    exact eraseSpans_eq_of_render_eq hcan hspells.canonical hsame

/-- `NOT (a = [null] OR b NOT EXISTS)` needs all of three levels. -/
theorem spells_negated_group :
    (∀ t ∈ [TokenKind.not, .leftParen, .field "a", .equal, .leftBracket, .null, .rightBracket, .or,
        .field "b", .not, .present, .rightParen].map TokenKind.unplaced, t.kind ≠ .endOfInput) ∧
      ∃ q, Spells 3 ([TokenKind.not, .leftParen, .field "a", .equal, .leftBracket, .null,
        .rightBracket, .or, .field "b", .not, .present, .rightParen].map
          TokenKind.unplaced |>.map Token.kind) q :=
  ⟨by decide, (ofTokens_eq_ok_iff_spells 3 _ [⟨.endOfInput, .point 0⟩] (by decide)
    (.inr ⟨_, rfl⟩)).1.mp ⟨_, rfl⟩⟩

end Query

end QueryFilter
