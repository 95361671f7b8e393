import QueryFilter.Proofs.Query.Relocation

/-!
# Reading does not look at places

Moving all tokens to the start of the text changes the places in the tree or in the error, and
nothing else. So what holds of the tokens of a tree at one place holds of them at every place.
Erasing the places is to put every offset at zero.

## Main definitions

* `Token.eraseSpan`, `SyntaxError.eraseSpan` — tokens and errors without their places
* `Literal.eraseSpans`, `Query.eraseSpans` — trees without their places

## Main results

* `Query.ofTokens_map_eraseSpan` — the tree, or the error, of a sequence of tokens
-/

namespace QueryFilter

/-- A token of the given kind at no particular place. -/
def TokenKind.unplaced (kind : TokenKind) : Token := ⟨kind, .point 0⟩

/-- The token moved to the start of the text, where it takes no space. -/
def Token.eraseSpan (token : Token) : Token := token.kind.unplaced

theorem Token.map_eraseSpan (tokens : List Token) :
    tokens.map eraseSpan = (tokens.map kind).map TokenKind.unplaced := by
  rw [List.map_map]
  rfl

/-- The error moved to the start of the text. -/
def SyntaxError.eraseSpan : SyntaxError → SyntaxError
  | unexpected _ expected found => unexpected (.point 0) expected found
  | tooDeep _ limit => tooDeep (.point 0) limit

/-! ### Trees -/

namespace Literal

mutual

/-- A literal without its places. -/
def eraseSpans : Literal → Literal
  | array items => array (allEraseSpans items)
  | marker kind raw _ => marker kind raw (.point 0)
  | string text => string text
  | number n => number n
  | boolean b => boolean b
  | null => null

/-- Literals without their places. -/
def allEraseSpans : List Literal → List Literal
  | [] => []
  | v :: vs => v.eraseSpans :: allEraseSpans vs

end

@[simp] theorem allEraseSpans_eq_map (vs : List Literal) :
    allEraseSpans vs = vs.map eraseSpans := by
  induction vs with
  | nil => rfl
  | cons v vs ih => rw [allEraseSpans, ih, List.map_cons]

@[simp] theorem eraseSpans_array (items : List Literal) :
    (array items).eraseSpans = array (items.map eraseSpans) := by
  rw [eraseSpans, allEraseSpans_eq_map]

theorem eraseSpans_eq_relocate (v : Literal) : v.eraseSpans = v.relocate fun _ => 0 := by
  induction v with
  | array items ih =>
    rw [eraseSpans_array, relocate_array]
    exact congrArg array (List.map_congr_left ih)
  | _ => rfl

end Literal

/-- A comparison without its places. -/
def Comparison.eraseSpans (c : Comparison) : Comparison :=
  { c with value := c.value.eraseSpans, span := .point 0 }

namespace Query

mutual

/-- A query without its places. -/
def eraseSpans : Query → Query
  | comparison c => comparison c.eraseSpans
  | and operands => and (allEraseSpans operands)
  | or operands => or (allEraseSpans operands)
  | not operand => not operand.eraseSpans
  | group content => group content.eraseSpans

/-- Queries without their places. -/
def allEraseSpans : List Query → List Query
  | [] => []
  | q :: qs => q.eraseSpans :: allEraseSpans qs

end

@[simp] theorem allEraseSpans_eq_map (qs : List Query) :
    allEraseSpans qs = qs.map eraseSpans := by
  induction qs with
  | nil => rfl
  | cons q qs ih => rw [allEraseSpans, ih, List.map_cons]

theorem eraseSpans_and (operands : List Query) :
    (and operands).eraseSpans = and (operands.map eraseSpans) := by
  rw [eraseSpans, allEraseSpans_eq_map]

theorem eraseSpans_or (operands : List Query) :
    (or operands).eraseSpans = or (operands.map eraseSpans) := by
  rw [eraseSpans, allEraseSpans_eq_map]

theorem eraseSpans_eq_relocate (q : Query) : q.eraseSpans = q.relocate fun _ => 0 := by
  induction q with
  | comparison c =>
    rw [eraseSpans, relocate, Comparison.eraseSpans, Literal.eraseSpans_eq_relocate]
    rfl
  | and operands ih =>
    rw [eraseSpans_and, relocate_and]
    exact congrArg and (List.map_congr_left ih)
  | or operands ih =>
    rw [eraseSpans_or, relocate_or]
    exact congrArg or (List.map_congr_left ih)
  | not operand ih => exact congrArg not ih
  | group content ih => exact congrArg group ih

/-! ### Tokens -/

/-- **A sequence of tokens.** Without the places, the tree or the error depends only on the kinds of
the tokens. -/
theorem ofTokens_map_eraseSpan (limit : Nat) (tokens : List Token) :
    ofTokens limit (tokens.map Token.eraseSpan) =
      ((ofTokens limit tokens).map eraseSpans).mapError SyntaxError.eraseSpan := by
  have htree : eraseSpans = relocate fun _ => 0 := funext eraseSpans_eq_relocate
  have herror : SyntaxError.eraseSpan = SyntaxError.relocate fun _ => 0 := by
    funext e
    cases e <;> rfl
  rw [htree, herror]
  exact State.run_relocate (fun _ => 0) limit .initial 0 tokens

end Query

end QueryFilter
