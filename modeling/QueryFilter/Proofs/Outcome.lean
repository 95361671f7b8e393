import Mathlib.Data.List.Forall2

/-!
# Computations that can fail

When a computation that is built from others succeeds, its parts have succeeded. These are the
inversions that every stage of the compiler is taken apart with. When it fails, it is with the error
of the first part that did.

## Main definitions

* `Except.fault?` — the error of a computation, if it fails
-/

namespace QueryFilter

namespace Except

variable {ε ε' α β : Type}

theorem exists_of_toOption_any {x : Except ε α} {p : α → Bool} (h : x.toOption.any p) :
    ∃ a, x = .ok a ∧ p a := by
  cases x with
  | error e => cases h
  | ok a => exact ⟨a, rfl, h⟩

theorem map_eq_ok_iff {f : α → β} {x : Except ε α} {b : β} :
    x.map f = .ok b ↔ ∃ a, x = .ok a ∧ f a = b := by
  cases x with
  | error e => simp [Except.map]
  | ok a => simp [Except.map]

theorem mapError_eq_ok_iff {f : ε → ε'} {x : Except ε α} {a : α} :
    x.mapError f = .ok a ↔ x = .ok a := by
  cases x with
  | error e => simp [Except.mapError]
  | ok b => simp [Except.mapError]

theorem map_eq_error_iff {f : α → β} {x : Except ε α} {e : ε} :
    x.map f = .error e ↔ x = .error e := by
  cases x with
  | error d => simp [Except.map]
  | ok a => simp [Except.map]

theorem mapError_eq_error_iff {f : ε → ε'} {x : Except ε α} {e : ε'} :
    x.mapError f = .error e ↔ ∃ d, x = .error d ∧ f d = e := by
  cases x with
  | error d => simp [Except.mapError]
  | ok a => simp [Except.mapError]

/-- A list of computations succeeds if each of them does. -/
theorem mapM_eq_ok_iff {f : α → Except ε β} {as : List α} {bs : List β} :
    as.mapM f = .ok bs ↔ List.Forall₂ (fun a b => f a = .ok b) as bs := by
  induction as generalizing bs with
  | nil =>
    rw [List.mapM_nil, List.forall₂_nil_left_iff]
    simp [pure, Except.pure, eq_comm]
  | cons a as ih =>
    rw [List.mapM_cons, List.forall₂_cons_left_iff]
    simp only [← ih]
    cases f a with
    | error e => simp [bind, Except.bind]
    | ok b =>
      cases as.mapM f with
      | error e => simp [bind, Except.bind]
      | ok bs' => simp [bind, Except.bind, pure, Except.pure, eq_comm]

/-- Computations one by one, of which each fails like another one but for its error, fail together
like the others. -/
theorem mapM_mapError {γ : Type} {f : α → Except ε γ} {g : β → Except ε' γ} {a : α → β}
    {e : ε → ε'} {as : List α} (h : ∀ x ∈ as, g (a x) = (f x).mapError e) :
    (as.map a).mapM g = (as.mapM f).mapError e := by
  induction as with
  | nil => rfl
  | cons x as ih =>
    obtain ⟨hx, has⟩ := List.forall_mem_cons.mp h
    rw [List.map_cons, List.mapM_cons, List.mapM_cons, hx, ih has]
    cases f x with
    | error _ => rfl
    | ok c =>
      cases as.mapM f with
      | error _ => rfl
      | ok cs => rfl

theorem mapError_map {f : α → β} {e : ε → ε'} (x : Except ε α) :
    (x.map f).mapError e = (x.mapError e).map f := by
  cases x with
  | error d => rfl
  | ok a => rfl

theorem mapError_bind {f : α → Except ε β} {e : ε → ε'} (x : Except ε α) :
    (x >>= f).mapError e = x.mapError e >>= fun a => (f a).mapError e := by
  cases x with
  | error d => rfl
  | ok a => rfl

/-- Computations one by one, of which each does the same as another one up to a function of the
errors, do the same together. -/
theorem mapM_mapError_congr {γ : Type} {f : α → Except ε γ} {g : β → Except ε γ} {a : α → β}
    {e : ε → ε'} {as : List α} (h : ∀ x ∈ as, (g (a x)).mapError e = (f x).mapError e) :
    ((as.map a).mapM g).mapError e = (as.mapM f).mapError e := by
  induction as with
  | nil => rfl
  | cons x as ih =>
    obtain ⟨hx, has⟩ := List.forall_mem_cons.mp h
    rw [List.map_cons, List.mapM_cons, List.mapM_cons, mapError_bind, mapError_bind, hx]
    congr 1
    funext c
    rw [mapError_bind, mapError_bind, ih has]

/-! ### Errors -/

/-- The error of a computation, if it fails. -/
def fault? : Except ε α → Option ε
  | .error e => some e
  | .ok _ => none

theorem fault?_eq_some_iff {x : Except ε α} {e : ε} : fault? x = some e ↔ x = .error e := by
  cases x with
  | error d => simp [fault?]
  | ok a => simp [fault?]

theorem fault?_eq_none_iff {x : Except ε α} : fault? x = none ↔ ∃ a, x = .ok a := by
  cases x with
  | error d => simp [fault?]
  | ok a => simp [fault?]

theorem fault?_map {f : α → β} (x : Except ε α) : fault? (x.map f) = fault? x := by
  cases x with
  | error d => rfl
  | ok a => rfl

theorem fault?_mapError {f : ε → ε'} (x : Except ε α) :
    fault? (x.mapError f) = (fault? x).map f := by
  cases x with
  | error d => rfl
  | ok a => rfl

/-- The error of a list of computations is the first error of one of them. -/
theorem fault?_mapM (f : α → Except ε β) (as : List α) :
    fault? (as.mapM f) = as.findSome? fun a => fault? (f a) := by
  induction as with
  | nil => rfl
  | cons a as ih =>
    rw [List.mapM_cons, List.findSome?_cons, ← ih]
    cases f a with
    | error d => rfl
    | ok b =>
      cases as.mapM f with
      | error d => rfl
      | ok bs => rfl

/-- If the error of each computation is the first one that is found among some things, the error of
all of them is the first one among all of these. -/
theorem fault?_mapM_flatMap {γ : Type} {f : α → Except ε β} {parts : α → List γ}
    {p : γ → Option ε} {as : List α} (h : ∀ a ∈ as, fault? (f a) = (parts a).findSome? p) :
    fault? (as.mapM f) = (as.flatMap parts).findSome? p := by
  rw [fault?_mapM]
  induction as with
  | nil => rfl
  | cons a as ih =>
    obtain ⟨ha, has⟩ := List.forall_mem_cons.mp h
    rw [List.findSome?_cons, List.flatMap_cons, List.findSome?_append, ha, ih has]
    cases (parts a).findSome? p with
    | none => rfl
    | some e => rfl

/-- The first error that is found among some things is that of the first thing that has one. -/
theorem findSome?_eq_some_iff_first {fails : α → ε → Prop} {p : α → Option ε}
    (h : ∀ a e, fails a e ↔ p a = some e) {as : List α} {e : ε} :
    as.findSome? p = some e ↔ ∃ before a after, as = before ++ a :: after ∧
      (∀ b ∈ before, ∀ e', ¬ fails b e') ∧ fails a e := by
  have hnone : ∀ b, p b = none ↔ ∀ e', ¬ fails b e' := by
    intro b
    simp only [h, Option.eq_none_iff_forall_ne_some, ne_eq]
  rw [List.findSome?_eq_some_iff]
  simp only [hnone, ← h]
  constructor
  · rintro ⟨before, a, after, heq, ha, hbefore⟩
    exact ⟨before, a, after, heq, hbefore, ha⟩
  · rintro ⟨before, a, after, heq, hbefore, ha⟩
    exact ⟨before, a, after, heq, ha, hbefore⟩

/-- An error is found if one of the things has one. -/
theorem exists_findSome?_iff {fails : α → ε → Prop} {p : α → Option ε}
    (h : ∀ a e, fails a e ↔ p a = some e) {as : List α} :
    (∃ e, as.findSome? p = some e) ↔ ∃ a ∈ as, ∃ e, fails a e := by
  simp only [← Option.isSome_iff_exists, List.findSome?_isSome_iff, h]

/-- Two computations that are the same up to functions of their results and of their errors end
both well or both not. -/
theorem map_mapError_eq_iff {γ δ : Type} {f : α → γ} {e : ε → δ} {x y : Except ε α} :
    (x.map f).mapError e = (y.map f).mapError e ↔
      (∃ a b, x = .ok a ∧ y = .ok b ∧ f a = f b) ∨
        ∃ d d', x = .error d ∧ y = .error d' ∧ e d = e d' := by
  cases x with
  | error d => cases y <;> simp [Except.map, Except.mapError]
  | ok a => cases y <;> simp [Except.map, Except.mapError]

end Except

/-- What stands in the second of two related lists is related to something in the first. -/
theorem exists_mem_of_forall₂ {α β : Type} {R : α → β → Prop} {as : List α} {bs : List β}
    (h : List.Forall₂ R as bs) {b : β} (hb : b ∈ bs) : ∃ a ∈ as, R a b := by
  induction h with
  | nil => exact absurd hb List.not_mem_nil
  | cons hab _ ih =>
    rcases List.mem_cons.mp hb with rfl | hb
    · exact ⟨_, List.mem_cons_self, hab⟩
    · obtain ⟨a, ha, hr⟩ := ih hb
      exact ⟨a, List.mem_cons_of_mem _ ha, hr⟩

end QueryFilter
