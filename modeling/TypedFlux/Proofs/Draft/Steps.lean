import TypedFlux.Draft

/-
  Steps that succeed.

  A step of a draft may fail and changes its state in any
  case.  A sequence succeeds exactly if all its steps do, and
  so every statement about a successful step can follow the
  step's own parts.

  Key theorems include:
    * `Step.bind_eq_ok`, `Step.pure_eq_ok`
    * `Step.forM_cons_eq_ok`
    * `Step.forM_simulates`
    * `Step.forM_follows`
-/

------------------------------------------------------------
-- Sequences of Steps
------------------------------------------------------------

namespace TypedFlux

namespace Step

variable {ε σ α β : Type}

/- Two steps succeed if both do, one after the other. -/
theorem bind_eq_ok
    {x : ExceptT ε (StateM σ) α}
    {f : α → ExceptT ε (StateM σ) β}
    {s t : σ}
    {b : β} :
    (x >>= f) s = (.ok b, t) ↔
      ∃ a u, x s = (.ok a, u) ∧ f a u = (.ok b, t) := by
  -- the bind of failures over the bind of states
  change (let (r, u) := x s; ExceptT.bindCont f r u) = _ ↔ _
  constructor
  · rcases hRun : x s with ⟨e | a, u⟩
    · intro hStep
      cases hStep
    · intro hStep
      exact ⟨a, u, rfl, hStep⟩
  · rintro ⟨a, u, hRun, hStep⟩
    rw [hRun]
    exact hStep

theorem pure_eq_ok
    {a b : α}
    {s t : σ} :
    (pure a : ExceptT ε (StateM σ) α) s = (.ok b, t) ↔
      a = b ∧ s = t := by
  change (Except.ok a, s) = (.ok b, t) ↔ _
  simp

theorem throw_ne_ok
    {e : ε}
    {a : α}
    {s t : σ} :
    (throw e : ExceptT ε (StateM σ) α) s ≠ (.ok a, t) := by
  change (Except.error e, s) ≠ (.ok a, t)
  simp

/- A change of the state always succeeds. -/
theorem modify_eq_ok
    {f : σ → σ}
    {a : PUnit}
    {s t : σ} :
    (modify f : ExceptT ε (StateM σ) PUnit) s = (.ok a, t) ↔
      f s = t := by
  change (Except.ok PUnit.unit, f s) = (.ok a, t) ↔ _
  simp

/- A value that is computed without the state. -/
theorem lift_eq_ok
    {x : Except ε α}
    {a : α}
    {s t : σ} :
    (liftM x : ExceptT ε (StateM σ) α) s = (.ok a, t) ↔
      x = .ok a ∧ s = t := by
  cases x with
  | error e =>
      change (Except.error e, s) = (.ok a, t) ↔ _
      simp
  | ok b =>
      change (Except.ok b, s) = (.ok a, t) ↔ _
      simp

theorem except_bind_eq_ok
    {x : Except ε α}
    {f : α → Except ε β}
    {b : β} :
    (x >>= f) = .ok b ↔ ∃ a, x = .ok a ∧ f a = .ok b := by
  cases x with
  | error e =>
      change Except.error e = .ok b ↔ _
      simp
  | ok a =>
      change f a = .ok b ↔ _
      simp

/- A step for each item of a list. -/
theorem forM_nil_eq_ok
    {f : α → ExceptT ε (StateM σ) PUnit}
    {a : PUnit}
    {s t : σ} :
    ([] : List α).forM f s = (.ok a, t) ↔ s = t := by
  change (Except.ok PUnit.unit, s) = (.ok a, t) ↔ _
  simp

/- A list of steps begins with its first one. -/
theorem forM_cons_eq_ok
    {f : α → ExceptT ε (StateM σ) PUnit}
    {x : α}
    {xs : List α}
    {a : PUnit}
    {s t : σ} :
    (x :: xs).forM f s = (.ok a, t) ↔
      ∃ u, f x s = (.ok PUnit.unit, u) ∧
        xs.forM f u = (.ok PUnit.unit, t) := by
  change (f x >>= fun _ => xs.forM f) s = _ ↔ _
  rw [bind_eq_ok]
  constructor
  · rintro ⟨⟨⟩, u, hFirst, hRest⟩
    exact ⟨u, hFirst, hRest⟩
  · rintro ⟨u, hFirst, hRest⟩
    exact ⟨PUnit.unit, u, hFirst, hRest⟩

/-
  Where each step of one list can be matched by a step of
  another, the whole list can.
-/
theorem forM_simulates
    {R : σ → σ → Prop}
    {f : α → ExceptT ε (StateM σ) PUnit}
    {g : α → α}
    (hStep : ∀ x s s' t, R s s' →
      f x s = (.ok PUnit.unit, t) →
        ∃ t', f (g x) s' = (.ok PUnit.unit, t') ∧ R t t')
    {xs : List α}
    {s s' t : σ}
    (hStart : R s s')
    (hRun : xs.forM f s = (.ok PUnit.unit, t)) :
    ∃ t', (xs.map g).forM f s' = (.ok PUnit.unit, t') ∧
      R t t' := by
  induction xs generalizing s s' with
  | nil =>
      cases forM_nil_eq_ok.mp hRun
      exact ⟨s', forM_nil_eq_ok.mpr rfl, hStart⟩
  | cons x xs ih =>
      rcases forM_cons_eq_ok.mp hRun with ⟨u, hFirst, hRest⟩
      rcases hStep x s s' u hStart hFirst with
        ⟨u', hFirst', hMiddle⟩
      rcases ih hMiddle hRest with ⟨t', hRest', hEnd⟩
      exact ⟨t', forM_cons_eq_ok.mpr ⟨u', hFirst', hRest'⟩,
        hEnd⟩

/-
  Where each step takes an account along, the account of a
  whole list is folded.
-/
theorem forM_follows
    {R : σ → β → Prop}
    {f : α → ExceptT ε (StateM σ) PUnit}
    {add : β → α → β}
    (hStep : ∀ x s b t, R s b →
      f x s = (.ok PUnit.unit, t) → R t (add b x))
    {xs : List α}
    {s t : σ}
    {b : β}
    (hStart : R s b)
    (hRun : xs.forM f s = (.ok PUnit.unit, t)) :
    R t (xs.foldl add b) := by
  induction xs generalizing s b with
  | nil =>
      cases forM_nil_eq_ok.mp hRun
      exact hStart
  | cons x xs ih =>
      rcases forM_cons_eq_ok.mp hRun with ⟨u, hFirst, hRest⟩
      exact ih (hStep x s b u hStart hFirst) hRest

end Step

end TypedFlux
