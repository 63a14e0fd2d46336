import Mathlib.Data.List.Forall2
import TypedFlux.Proofs.Draft.Routing

/-
  Drafts that come to the same script.

  Two steps match if from alike states they succeed together
  and leave alike states behind, or fail together.  Drafts are
  alike if their scripts are the same and stay the same: what
  was told on the way does not count, and neither does which
  clause asked for a condition.

  Key definitions include:
    * `Step.Agree`, `Step.Matched`
    * `Scope.Alike`, `Draft.Alike`
    * `Part.effect`, `Part.effects`
    * `Drafting.settle`
    * `Query.translate`

  Key theorems include:
    * `Step.Matched.bind`, `Step.matched_forM`
    * `Expr.visit_matched`
    * `Drafting.route_effects`
    * `Drafting.filter_matched`
    * `Drafting.clause_matched`, `Drafting.operator_matched`
    * `Query.translate_matched`
-/

------------------------------------------------------------
-- Steps that Match
------------------------------------------------------------

namespace TypedFlux

namespace Step

variable {ε σ α β γ δ : Type}

/-
  Two steps end alike: they succeed with values that `A`
  relates, or fail with errors that `E` relates.
-/
inductive Agree
    (R : σ → σ → Prop)
    (A : α → β → Prop)
    (E : ε → ε → Prop) :
    Except ε α × σ → Except ε β × σ → Prop where
  | ok
      {a : α}
      {b : β}
      {s t : σ} :
      A a b → R s t → Agree R A E (.ok a, s) (.ok b, t)
  | error
      {e f : ε}
      {s t : σ} :
      E e f → Agree R A E (.error e, s) (.error f, t)

/- From related states, two steps end alike. -/
def Matched
    (R : σ → σ → Prop)
    (A : α → β → Prop)
    (E : ε → ε → Prop)
    (x : ExceptT ε (StateM σ) α)
    (y : ExceptT ε (StateM σ) β) : Prop :=
  ∀ s t, R s t → Agree R A E (x s) (y t)

variable {R : σ → σ → Prop}
variable {A A' : α → β → Prop}
variable {B : γ → δ → Prop}
variable {E F : ε → ε → Prop}
variable {x : ExceptT ε (StateM σ) α}
variable {y : ExceptT ε (StateM σ) β}

/- Less may be asked of the values and of the errors. -/
theorem Agree.mono
    {left : Except ε α × σ}
    {right : Except ε β × σ}
    (hEnds : Agree R A E left right)
    (hValues : ∀ a b, A a b → A' a b)
    (hErrors : ∀ e f, E e f → F e f) :
    Agree R A' F left right := by
  cases hEnds with
  | ok hValue hState => exact .ok (hValues _ _ hValue) hState
  | error hError => exact .error (hErrors _ _ hError)

/- Two steps may be said to match more loosely. -/
theorem Matched.mono
    (hMatched : Matched R A E x y)
    (hValues : ∀ a b, A a b → A' a b)
    (hErrors : ∀ e f, E e f → F e f) :
    Matched R A' F x y :=
  fun s t hStates =>
    (hMatched s t hStates).mono hValues hErrors

/- In the loosest case any two failures match. -/
theorem Matched.forget
    (hMatched : Matched R A E x y) :
    Matched R A (fun _ _ => True) x y :=
  hMatched.mono (fun _ _ => id) fun _ _ _ => trivial

theorem matched_pure
    {a : α}
    {b : β}
    (hValues : A a b) :
    Matched R A E (pure a) (pure b) :=
  fun _ _ hStates => .ok hValues hStates

theorem matched_throw
    {e f : ε}
    (hErrors : E e f) :
    Matched R A E (throw e) (throw f) :=
  fun _ _ _ => .error hErrors

/- Steps may look at the state and see what matches. -/
theorem matched_get :
    Matched R R E (get : ExceptT ε (StateM σ) σ)
      (get : ExceptT ε (StateM σ) σ) :=
  fun _ _ hStates => .ok hStates hStates

/- Changes match if they keep the states matching. -/
theorem matched_modify
    {f g : σ → σ}
    (hChange : ∀ s t, R s t → R (f s) (g t)) :
    Matched R Eq E (modify f : ExceptT ε (StateM σ) PUnit)
      (modify g : ExceptT ε (StateM σ) PUnit) :=
  fun s t hStates => .ok rfl (hChange s t hStates)

/-
  Sequences match step by step. Where both fail in the first
  step, the states match by then.
-/
theorem Matched.bind
    {f : α → ExceptT ε (StateM σ) γ}
    {g : β → ExceptT ε (StateM σ) δ}
    (hFirst : Matched R A E x y)
    (hNext : ∀ a b, A a b → Matched R B E (f a) (g b)) :
    Matched R B E (x >>= f) (y >>= g) := by
  intro s t hStates
  have hEnds := hFirst s t hStates
  generalize hLeft : x s = left at hEnds
  generalize hRight : y t = right at hEnds
  cases hEnds with
  | ok hValues hStates =>
      rw [bind_of_ok hLeft, bind_of_ok hRight]
      exact hNext _ _ hValues _ _ hStates
  | error hErrors =>
      rw [bind_eq_error.mpr (.inl hLeft),
        bind_eq_error.mpr (.inl hRight)]
      exact .error hErrors

/- A value that both steps found is the same one. -/
theorem Matched.bind_same
    {y : ExceptT ε (StateM σ) α}
    {f : α → ExceptT ε (StateM σ) γ}
    {g : α → ExceptT ε (StateM σ) δ}
    (hFirst : Matched R Eq E x y)
    (hNext : ∀ a, Matched R B E (f a) (g a)) :
    Matched R B E (x >>= f) (y >>= g) :=
  hFirst.bind fun a _ hSame => hSame ▸ hNext a

/- Steps that end alike with a third one end alike. -/
theorem Matched.trans
    {x y z : ExceptT ε (StateM σ) α}
    (hFirst : Matched R Eq (fun _ _ => True) x y)
    (hSecond : Matched R Eq (fun _ _ => True) y z)
    (hRefl : ∀ s, R s s)
    (hTrans : ∀ s t u, R s t → R t u → R s u) :
    Matched R Eq (fun _ _ => True) x z := by
  intro s t hStates
  have hLeft := hFirst s s (hRefl s)
  have hRight := hSecond s t hStates
  generalize x s = left at hLeft ⊢
  generalize y s = middle at hLeft hRight
  generalize z t = right at hRight ⊢
  cases hLeft with
  | error _ =>
      cases hRight with
      | error _ => exact .error trivial
  | ok hValue hState =>
      cases hRight with
      | ok hValue' hState' =>
          exact .ok (hValue.trans hValue')
            (hTrans _ _ _ hState hState')

/- Lists of steps match where their steps do. -/
theorem matched_forM
    {f : α → ExceptT ε (StateM σ) PUnit}
    {g : β → ExceptT ε (StateM σ) PUnit}
    {xs : List α}
    {ys : List β}
    (hEach : List.Forall₂
      (fun a b => Matched R Eq E (f a) (g b)) xs ys) :
    Matched R Eq E (xs.forM f) (ys.forM g) := by
  induction hEach with
  | nil => exact matched_pure rfl
  | cons hFirst _ ih => exact hFirst.bind_same fun _ => ih

/- Lists of steps that begin alike match if their ends do. -/
theorem matched_forM_append
    {f : α → ExceptT ε (StateM σ) PUnit}
    {before xs ys : List α}
    (hBefore : ∀ a ∈ before, Matched R Eq E (f a) (f a))
    (hRest : Matched R Eq E (xs.forM f) (ys.forM f)) :
    Matched R Eq E ((before ++ xs).forM f)
      ((before ++ ys).forM f) := by
  simp only [List.forM_eq_forM, List.forM_append]
  exact (matched_forM (List.forall₂_same.mpr hBefore)).bind_same
    fun _ => hRest

end Step

end TypedFlux

------------------------------------------------------------
-- Walks
------------------------------------------------------------

namespace TypedFlux

namespace Scope

/- Two scopes differ in what happened on the way only. -/
structure Alike (s t : Scope) : Prop where
  options : s.options = t.options
  strings : s.usesStrings = t.usesStrings

variable {s t u : Scope}

theorem Alike.refl
    (s : Scope) :
    Alike s s :=
  ⟨rfl, rfl⟩

theorem Alike.symm
    (hAlike : Alike s t) :
    Alike t s :=
  ⟨hAlike.options.symm, hAlike.strings.symm⟩

theorem Alike.trans
    (hFirst : Alike s t)
    (hSecond : Alike t u) :
    Alike s u :=
  ⟨hFirst.options.trans hSecond.options,
    hFirst.strings.trans hSecond.strings⟩

/- Two scopes that are alike give out the same names. -/
theorem Alike.bind
    (hAlike : Alike s t)
    (value : Value) :
    Alike (s.bind value) (t.bind value) := by
  refine ⟨?_, hAlike.strings⟩
  change s.options.add value = t.options.add value
  rw [hAlike.options]

theorem Alike.markTag
    (hAlike : Alike s t)
    (name : String) :
    Alike (s.markTag name) (t.markTag name) := by
  refine ⟨?_, hAlike.strings⟩
  change s.options.markTag name = t.options.markTag name
  rw [hAlike.options]

end Scope

open Step

/- Walks bind the same name in scopes that are alike. -/
theorem Walk.bind_matched
    {E : QueryError → QueryError → Prop}
    (value : Value) :
    Matched Scope.Alike Eq E (Walk.bind value)
      (Walk.bind value) := by
  intro s t hAlike
  refine .ok ?_ (hAlike.bind value)
  rw [hAlike.options]

theorem Walk.useStrings_matched :
    Matched Scope.Alike Eq Eq Walk.useStrings
      Walk.useStrings :=
  matched_modify fun _ _ hAlike => ⟨hAlike.options, rfl⟩

/- Which constant is marked does not hang on the journal. -/
theorem Part.markAgainst_matched
    (p q : Part) :
    Matched Scope.Alike Eq Eq (p.markAgainst q)
      (p.markAgainst q) := by
  unfold Part.markAgainst
  split
  · exact matched_modify fun _ _ hAlike => hAlike.markTag _
  · exact matched_pure rfl

namespace Expr

variable {resolver : Resolver}

/- Neither do the parts of an operation. -/
theorem combine_matched
    (op : BinaryOp)
    (p q : Part) :
    Matched Scope.Alike Eq Eq (combine op p q)
      (combine op p q) := by
  unfold combine
  split
  · refine (p.markAgainst_matched q).bind_same fun _ => ?_
    refine (q.markAgainst_matched p).bind_same fun _ => ?_
    exact matched_pure rfl
  · exact matched_pure rfl

/- Lists of expressions match where their expressions do. -/
theorem visitAll_matched
    {A : Part → Part → Prop}
    {es fs : List Expr}
    (hEach : List.Forall₂ (fun e f =>
      Matched Scope.Alike A Eq (visit resolver e)
        (visit resolver f)) es fs) :
    Matched Scope.Alike (List.Forall₂ A) Eq
      (visitAll resolver es) (visitAll resolver fs) := by
  induction hEach with
  | nil =>
      simp only [visitAll]
      exact matched_pure .nil
  | cons hFirst _ ih =>
      simp only [visitAll]
      refine hFirst.bind fun p q hParts => ?_
      refine ih.bind fun ps qs hOthers => ?_
      exact matched_pure (.cons hParts hOthers)

/- No walk looks at what happened before. -/
theorem visit_matched
    (e : Expr) :
    Matched Scope.Alike Eq Eq (visit resolver e)
      (visit resolver e) := by
  induction e with
  | constant value =>
      simp only [visit]
      exact (Walk.bind_matched value).bind_same fun _ =>
        matched_pure rfl
  | member name =>
      simp only [visit]
      exact matched_pure rfl
  | index name key =>
      simp only [visit]
      exact matched_pure rfl
  | binary op left right ihLeft ihRight =>
      simp only [visit]
      split
      · exact matched_throw rfl
      · refine ihLeft.bind_same fun p => ?_
        refine ihRight.bind_same fun q => ?_
        exact combine_matched op p q
  | unary op operand ih =>
      cases op with
      | convert =>
          simp only [visit]
          exact ih
      | not => exact matched_throw rfl
      | negate => exact matched_throw rfl
  | call receiver method args ihReceiver ihArgs =>
      simp only [visit]
      split
      · exact matched_throw rfl
      · have hArgs := visitAll_matched
          (List.forall₂_same.mpr ihArgs)
        rw [List.forall₂_eq_eq_eq] at hArgs
        refine ihReceiver.bind_same fun p => ?_
        refine hArgs.bind_same fun ps => ?_
        split
        · exact Walk.useStrings_matched.bind_same fun _ =>
            matched_pure rfl
        · exact matched_pure rfl
  | parameter name => exact matched_throw rfl
  | conditional test ifTrue ifFalse _ _ _ =>
      exact matched_throw rfl

/- Both sides of a conjunction are opened. -/
theorem conjuncts_of_isConjunction
    {op : BinaryOp}
    {left right : Expr}
    (hConjunction : op.isConjunction = true) :
    (Expr.binary op left right).conjuncts =
      left.conjuncts ++ right.conjuncts := by
  rw [conjuncts, if_pos hConjunction]

/- Any other operation stays whole. -/
theorem conjuncts_of_not_isConjunction
    {op : BinaryOp}
    {left right : Expr}
    (hOther : op.isConjunction = false) :
    (Expr.binary op left right).conjuncts =
      [.binary op left right] := by
  rw [conjuncts, hOther]
  rfl

/- A predicate is walked alike in scopes that are alike. -/
theorem visitPredicate_matched
    (resolver : Resolver)
    (predicate : Expr) :
    Matched Scope.Alike Eq Eq
      (predicate.visitPredicate resolver)
      (predicate.visitPredicate resolver) := by
  refine (visitAll_matched (List.forall₂_same.mpr
    fun e _ => visit_matched e)).mono ?_ fun _ _ => id
  intro ps qs hSame
  rwa [List.forall₂_eq_eq_eq] at hSame

end Expr

end TypedFlux

------------------------------------------------------------
-- Alike Drafts
------------------------------------------------------------

namespace TypedFlux

namespace Pipeline

/- A pipeline with other conditions. -/
def withFilters
    (p : Pipeline)
    (filters : List String) : Pipeline :=
  { p with filters }

/-
  Two pipelines ask for the same, but the conditions may have
  come one by one or several at once.
-/
structure Alike (p q : Pipeline) : Prop where
  others : p.withFilters [] = q.withFilters []
  filtered : p.filters = [] ↔ q.filters = []
  joined : " and ".intercalate p.filters =
    " and ".intercalate q.filters

variable {p q r : Pipeline}

theorem Alike.refl
    (p : Pipeline) :
    Alike p p :=
  ⟨rfl, Iff.rfl, rfl⟩

theorem Alike.symm
    (hAlike : Alike p q) :
    Alike q p :=
  ⟨hAlike.others.symm, hAlike.filtered.symm,
    hAlike.joined.symm⟩

theorem Alike.trans
    (hFirst : Alike p q)
    (hSecond : Alike q r) :
    Alike p r :=
  ⟨hFirst.others.trans hSecond.others,
    hFirst.filtered.trans hSecond.filtered,
    hFirst.joined.trans hSecond.joined⟩

/- Whatever leaves the conditions alone keeps pipelines alike. -/
theorem Alike.map
    {f : Pipeline → Pipeline}
    (hAlike : Alike p q)
    (hKeeps : ∀ p filters,
      f (p.withFilters filters) = (f p).withFilters filters) :
    Alike (f p) (f q) := by
  have hFilters : ∀ p, (f p).filters = p.filters := by
    intro p
    have hSame := congrArg Pipeline.filters
      (hKeeps p p.filters)
    exact hSame
  refine ⟨?_, ?_, ?_⟩
  · rw [← hKeeps, ← hKeeps, hAlike.others]
  · rw [hFilters, hFilters]
    exact hAlike.filtered
  · rw [hFilters, hFilters]
    exact hAlike.joined

/-
  A condition may be added behind conditions that were parted
  in another way, since all of them are joined.
-/
theorem Alike.addFilter
    (hAlike : Alike p q)
    (condition : String) :
    Alike (p.addFilter condition) (q.addFilter condition) where
  others := hAlike.others
  filtered := by simp [Pipeline.addFilter]
  joined := by
    have hJoined := Draft.join_concat_join hAlike.filtered
      hAlike.joined (List.cons_ne_nil condition [])
    exact hJoined

/- The text joins all conditions. -/
theorem Alike.text_eq
    (hAlike : Alike p q) :
    p.text = q.text := by
  have hFilters := filterStages_of_joined hAlike.filtered
    hAlike.joined
  have hOthers := hAlike.others
  cases p with
  | mk =>
      cases q with
      | mk =>
          simp only [withFilters, mk.injEq] at hOthers
          rcases hOthers with
            ⟨rfl, rfl, rfl, rfl, rfl, rfl, _, rfl, rfl⟩
          simp only [text, stages, hFilters]

end Pipeline

namespace Draft

/-
  Two drafts come to the same script, also if the same is taken
  up in both of them.
-/
structure Alike (d e : Draft) : Prop where
  scope : d.scope.Alike e.scope
  pipeline : d.pipeline.Alike e.pipeline
  tailTaken : d.tailTaken = e.tailTaken

variable {d e f : Draft}

theorem Alike.refl
    (d : Draft) :
    Alike d d :=
  ⟨.refl _, .refl _, rfl⟩

theorem Alike.symm
    (hAlike : Alike d e) :
    Alike e d :=
  ⟨hAlike.scope.symm, hAlike.pipeline.symm,
    hAlike.tailTaken.symm⟩

theorem Alike.trans
    (hFirst : Alike d e)
    (hSecond : Alike e f) :
    Alike d f :=
  ⟨hFirst.scope.trans hSecond.scope,
    hFirst.pipeline.trans hSecond.pipeline,
    hFirst.tailTaken.trans hSecond.tailTaken⟩

/-
  The scope and the pipeline of a draft are alike one by one.
-/
theorem Alike.withScope
    {s t : Scope}
    (hAlike : Alike d e)
    (hScope : s.Alike t) :
    Alike { d with scope := s } { e with scope := t } :=
  ⟨hScope, hAlike.pipeline, hAlike.tailTaken⟩

/-
  A change that leaves the conditions alone, and does not look
  at them, keeps two drafts alike.
-/
theorem Alike.mapPipeline
    {f : Pipeline → Pipeline}
    (hAlike : Alike d e)
    (hKeeps : ∀ p filters,
      f (p.withFilters filters) = (f p).withFilters filters) :
    Alike (d.mapPipeline f) (e.mapPipeline f) :=
  ⟨hAlike.scope, hAlike.pipeline.map hKeeps,
    hAlike.tailTaken⟩

theorem Alike.addConditions
    (hAlike : Alike d e)
    (conditions : List String) :
    Alike (d.addConditions conditions)
      (e.addConditions conditions) := by
  cases conditions with
  | nil => exact hAlike
  | cons first others =>
      exact ⟨hAlike.scope, hAlike.pipeline.addFilter _,
        hAlike.tailTaken⟩

/- What a query is carried out by: a script and a reduction. -/
def outcome (d : Draft) : Script × Option Reduction :=
  (d.script, d.pipeline.reduction?)

/-
  Nothing that leaves a draft tells it from one that is alike.
-/
theorem Alike.outcome_eq
    (hAlike : Alike d e) :
    d.outcome = e.outcome := by
  have hReduction :=
    congrArg Pipeline.reduction? hAlike.pipeline.others
  unfold outcome script
  rw [hAlike.scope.options, hAlike.scope.strings,
    hAlike.pipeline.text_eq]
  exact congrArg _ hReduction

end Draft

end TypedFlux

------------------------------------------------------------
-- Effects of Parts
------------------------------------------------------------

namespace TypedFlux

namespace Part

/- What parts do to a pipeline. -/
structure Effect where
  conditions : List String := []
  start? : Option String := none
  stop? : Option String := none

/- One effect after the other; a later bound replaces an earlier. -/
def Effect.append (a b : Effect) : Effect where
  conditions := a.conditions ++ b.conditions
  start? := b.start?.or a.start?
  stop? := b.stop?.or a.stop?

/- The bounds that a comparison of the time sets. -/
def timeEffect (part : Part) : Except QueryError Effect :=
  match part.timeBound? with
  | none => .error (.unsupported part.diagnostic "TimeRange")
  | some (bound, timeAtLeft, op) => do
      let bounds ← op.bounds timeAtLeft
      let name ← bound.text
      .ok {
        start? := Bound.start.assigned? name bounds
        stop? := Bound.stop.assigned? name bounds }

/- A test of the time adds no condition. -/
theorem conditions_of_timeEffect
    {part : Part}
    {effect : Effect}
    (hEffect : part.timeEffect = .ok effect) :
    effect.conditions = [] := by
  unfold timeEffect at hEffect
  split at hEffect
  · cases hEffect
  · rcases Step.except_bind_eq_ok.mp hEffect with
      ⟨bounds, _, hEffect⟩
    rcases Step.except_bind_eq_ok.mp hEffect with
      ⟨name, _, hEffect⟩
    cases hEffect
    rfl

/- What a part does, whatever the draft is. -/
def effect : Part → Except QueryError Effect
  | .timeBound left right op =>
      timeEffect (.timeBound left right op)
  | .blank => .ok {}
  | part => part.text.map fun text => { conditions := [text] }

/- What parts do one after the other. -/
def effects : List Part → Except QueryError Effect
  | [] => .ok {}
  | part :: rest => do
      let first ← part.effect
      let others ← effects rest
      .ok (first.append others)

/- A condition adds its own text, if it has one. -/
theorem effect_of_isCondition
    {part : Part}
    (hCondition : part.isCondition = true) :
    part.effect =
      part.text.map fun text => { conditions := [text] } := by
  cases part with
  | timeBound | blank => cases hCondition
  | literal | column | binary | call | indexed => rfl

/- Effects follow one another in any grouping. -/
theorem Effect.append_assoc
    (a b c : Effect) :
    (a.append b).append c = a.append (b.append c) := by
  simp [append, Option.or_assoc]

/- The effects of two lists, one after the other. -/
theorem effects_append
    (ps qs : List Part) :
    effects (ps ++ qs) = (do
      let first ← effects ps
      let others ← effects qs
      .ok (first.append others)) := by
  induction ps with
  | nil =>
      cases hOthers : effects qs with
      | error e => simp [effects, hOthers, bind, Except.bind]
      | ok others =>
          simp [effects, hOthers, bind, Except.bind,
            Effect.append]
  | cons p ps ih =>
      simp only [List.cons_append, effects, ih]
      cases p.effect with
      | error e => rfl
      | ok first =>
          cases effects ps with
          | error e => rfl
          | ok middle =>
              cases effects qs with
              | error e => rfl
              | ok others =>
                  exact congrArg _
                    (Effect.append_assoc _ _ _).symm

/- Parts that do the same one by one do the same together. -/
theorem effects_eq
    {ps qs : List Part}
    (hEach : List.Forall₂ (fun p q => p.effect = q.effect)
      ps qs) :
    effects ps = effects qs := by
  induction hEach with
  | nil => rfl
  | cons hFirst _ ih => simp only [effects, hFirst, ih]

end Part

/- The bounds of a comparison do not depend on those before. -/
theorem Range.restrict_timeEffect
    (r : Range)
    (part : Part) :
    (r.restrict part).map (·.1.pipeline) =
      part.timeEffect.map fun effect =>
        r.pipeline.setRange effect.start? effect.stop? := by
  cases hFound : part.timeBound? with
  | none =>
      simp only [Range.restrict, Part.timeEffect, hFound]
      rfl
  | some found =>
      rcases found with ⟨bound, timeAtLeft, op⟩
      simp only [Range.restrict, Part.timeEffect, hFound]
      cases op.bounds timeAtLeft with
      | error e => rfl
      | ok bounds =>
          cases bound.text with
          | error e => rfl
          | ok name =>
              exact congrArg
                (fun r : Range => Except.ok r.pipeline)
                (r.assign_eq name op bounds)

/- The draft after the bounds of an effect were set. -/
def Draft.setRange
    (d : Draft)
    (effect : Part.Effect) : Draft :=
  d.mapPipeline (·.setRange effect.start? effect.stop?)

namespace Draft

variable {d e : Draft}

theorem Alike.setRange
    (hAlike : Alike d e)
    (effect : Part.Effect) :
    Alike (d.setRange effect) (e.setRange effect) :=
  hAlike.mapPipeline fun _ _ => rfl

/- Of two bounds on one side the later one stays. -/
theorem setRange_setRange
    (d : Draft)
    (first others : Part.Effect) :
    (d.setRange first).setRange others =
      d.setRange (first.append others) := by
  unfold Draft.setRange Draft.mapPipeline
  simp only [Pipeline.setRange_setRange]
  rfl

theorem setRange_empty
    (d : Draft) :
    d.setRange {} = d := by
  unfold Draft.setRange Draft.mapPipeline
  simp only [Pipeline.setRange_none]

/- Bounds are set in a draft and told of. -/
theorem narrow_alike
    {range : Range}
    {effect : Part.Effect}
    (events : List Event)
    (hPipeline : range.pipeline =
      d.pipeline.setRange effect.start? effect.stop?) :
    Alike (d.narrow range events) (d.setRange effect) where
  scope := ⟨rfl, rfl⟩
  pipeline := by
    change range.pipeline.Alike _
    rw [hPipeline]
    exact .refl _
  tailTaken := rfl

end Draft

namespace Drafting

open Draft

/- Narrowing the range does what the comparison does. -/
theorem restrict_of_ok
    {part : Part}
    {effect : Part.Effect}
    (d : Draft)
    (hEffect : part.timeEffect = .ok effect) :
    ∃ u : Draft, restrict part d = (.ok (), u) ∧
      u.Alike (d.setRange effect) := by
  have hRange := d.range.restrict_timeEffect part
  rw [hEffect] at hRange
  cases hRestrict : d.range.restrict part with
  | error e =>
      rw [hRestrict] at hRange
      cases hRange
  | ok found =>
      rw [hRestrict] at hRange
      exact ⟨d.narrow found.1 found.2,
        restrict_eq_ok.mpr ⟨_, _, hRestrict, rfl⟩,
        narrow_alike _ (Except.ok.inj hRange)⟩

/-
  A test that the range cannot make leaves the draft as it is.
-/
theorem restrict_of_error
    {part : Part}
    {e : QueryError}
    (d : Draft)
    (hEffect : part.timeEffect = .error e) :
    restrict part d = (.error e, d) := by
  have hRange := d.range.restrict_timeEffect part
  rw [hEffect] at hRange
  cases hRestrict : d.range.restrict part with
  | error e' =>
      rw [hRestrict] at hRange
      cases hRange
      exact restrict_eq_error.mpr ⟨hRestrict, rfl⟩
  | ok found =>
      rw [hRestrict] at hRange
      cases hRange

/- The conditions of one part come before those of the others. -/
def prepend
    (effect : Part.Effect) :
    Except QueryError (List String) × Draft →
      Except QueryError (List String) × Draft
  | (result, d) => (result.map (effect.conditions ++ ·), d)

/- Nothing is put in front of the conditions. -/
theorem prepend_of_nil
    {effect : Part.Effect}
    (hConditions : effect.conditions = [])
    (run : Except QueryError (List String) × Draft) :
    prepend effect run = run := by
  rcases run with ⟨e | conditions, d⟩
  · rfl
  · simp [prepend, hConditions, Except.map]

/- A part does its own before the others are routed. -/
theorem route_cons_of_ok
    {part : Part}
    {effect : Part.Effect}
    (rest : List Part)
    (d : Draft)
    (hEffect : part.effect = .ok effect) :
    ∃ u : Draft, u.Alike (d.setRange effect) ∧
      route (part :: rest) d = prepend effect (route rest u) := by
  by_cases hCondition : part.isCondition = true
  · rw [Part.effect_of_isCondition hCondition] at hEffect
    cases hText : part.text with
    | error e =>
        rw [hText] at hEffect
        cases hEffect
    | ok text =>
        rw [hText] at hEffect
        cases hEffect
        refine ⟨d, d.setRange_empty ▸ .refl _, ?_⟩
        rw [route_condition hCondition, hText]
        refine (Step.bind_of_ok rfl).trans ?_
        rcases hRest : route rest d with ⟨e | conditions, d'⟩
        · exact Step.bind_eq_error.mpr (.inl hRest)
        · exact Step.bind_of_ok hRest
  · cases part with
    | timeBound left right op =>
        change Part.timeEffect _ = .ok effect at hEffect
        rcases restrict_of_ok d hEffect with
          ⟨u, hNarrow, hAlike⟩
        refine ⟨u, hAlike, ?_⟩
        rw [prepend_of_nil
          (Part.conditions_of_timeEffect hEffect)]
        exact Step.bind_of_ok hNarrow
    | blank =>
        cases hEffect
        exact ⟨d, d.setRange_empty ▸ .refl _,
          (prepend_of_nil rfl _).symm⟩
    | literal | column | binary | call | indexed =>
        exact absurd rfl hCondition

/- Where a part fails, no other is routed. -/
theorem route_cons_of_error
    {part : Part}
    {e : QueryError}
    (rest : List Part)
    (d : Draft)
    (hEffect : part.effect = .error e) :
    ∃ d', route (part :: rest) d = (.error e, d') := by
  by_cases hCondition : part.isCondition = true
  · rw [Part.effect_of_isCondition hCondition] at hEffect
    cases hText : part.text with
    | error e' =>
        rw [hText] at hEffect
        cases hEffect
        rw [route_condition hCondition, hText]
        exact ⟨d, rfl⟩
    | ok text =>
        rw [hText] at hEffect
        cases hEffect
  · cases part with
    | timeBound left right op =>
        change Part.timeEffect _ = .error e at hEffect
        exact ⟨d, Step.bind_eq_error.mpr
          (.inl (restrict_of_error d hEffect))⟩
    | blank => cases hEffect
    | literal | column | binary | call | indexed =>
        exact absurd rfl hCondition

/-
  Routing does what the parts do, and nothing else.  Where the
  parts fail, it fails at the first that does.
-/
theorem route_effects
    (parts : List Part)
    (d : Draft) :
    match Part.effects parts with
    | .ok effect =>
        ∃ d' : Draft,
          route parts d = (.ok effect.conditions, d') ∧
            d'.Alike (d.setRange effect)
    | .error e => ∃ d', route parts d = (.error e, d') := by
  induction parts generalizing d with
  | nil => exact ⟨d, rfl, d.setRange_empty ▸ .refl _⟩
  | cons part rest ih =>
      cases hFirst : part.effect with
      | error e =>
          simp only [Part.effects, hFirst]
          exact route_cons_of_error rest d hFirst
      | ok first =>
          rcases route_cons_of_ok rest d hFirst with
            ⟨u, hBounds, hRoute⟩
          have hRest := ih u
          simp only [Part.effects, hFirst]
          rw [hRoute]
          cases hOthers : Part.effects rest with
          | error e =>
              rw [hOthers] at hRest
              rcases hRest with ⟨d', hRest⟩
              rw [hRest]
              exact ⟨d', rfl⟩
          | ok others =>
              rw [hOthers] at hRest
              rcases hRest with ⟨d', hRest, hAlike⟩
              rw [hRest]
              refine ⟨d', rfl, ?_⟩
              rw [← setRange_setRange]
              exact hAlike.trans (hBounds.setRange others)

end Drafting

end TypedFlux

------------------------------------------------------------
-- Clauses and Operators
------------------------------------------------------------

namespace TypedFlux

namespace Drafting

open Draft Step TypedFlux.Expr

variable {resolver : Resolver}

/- A walk reads and changes the scope of a draft only. -/
theorem walk_matched
    {α β : Type}
    {A : α → β → Prop}
    {E : QueryError → QueryError → Prop}
    {x : Walk α}
    {y : Walk β}
    (hWalk : Matched Scope.Alike A E x y) :
    Matched Draft.Alike A E (walk x) (walk y) := by
  intro d e hAlike
  have hEnds := hWalk d.scope e.scope hAlike.scope
  change Agree _ _ _
    ((x d.scope).1, { d with scope := (x d.scope).2 })
    ((y e.scope).1, { e with scope := (y e.scope).2 })
  generalize x d.scope = left at hEnds ⊢
  generalize y e.scope = right at hEnds ⊢
  cases hEnds with
  | ok hValues hScope =>
      exact .ok hValues (hAlike.withScope hScope)
  | error hErrors => exact .error hErrors

/- So does any change that leaves the conditions alone. -/
theorem modifyPipeline_matched
    {E : QueryError → QueryError → Prop}
    {f : Pipeline → Pipeline}
    (hKeeps : ∀ p filters,
      f (p.withFilters filters) = (f p).withFilters filters) :
    Matched Draft.Alike Eq E (modifyPipeline f)
      (modifyPipeline f) :=
  matched_modify fun _ _ hAlike => hAlike.mapPipeline hKeeps

/- Parts that do the same are routed alike. -/
theorem route_matched
    {ps qs : List Part}
    (hEffects : Part.effects ps = Part.effects qs) :
    Matched Draft.Alike Eq Eq (route ps) (route qs) := by
  intro d e hAlike
  have hLeft := route_effects ps d
  have hRight := route_effects qs e
  rw [hEffects] at hLeft
  cases hFound : Part.effects qs with
  | error error =>
      rw [hFound] at hLeft hRight
      rcases hLeft with ⟨d', hLeft⟩
      rcases hRight with ⟨e', hRight⟩
      rw [hLeft, hRight]
      exact .error rfl
  | ok effect =>
      rw [hFound] at hLeft hRight
      rcases hLeft with ⟨d', hLeft, hFirst⟩
      rcases hRight with ⟨e', hRight, hSecond⟩
      rw [hLeft, hRight]
      exact .ok rfl (hFirst.trans
        ((hAlike.setRange effect).trans hSecond.symm))

/- Route parts and add their conditions. -/
def settle (parts : List Part) : Drafting Unit := do
  let conditions ← route parts
  modify (·.addConditions conditions)

/-
  Parts with the same effects settle alike, however they are
  grouped.
-/
theorem settle_matched
    {ps qs : List Part}
    (hEffects : Part.effects ps = Part.effects qs) :
    Matched Draft.Alike Eq Eq (settle ps) (settle qs) :=
  (route_matched hEffects).bind_same fun conditions =>
    matched_modify fun _ _ hAlike =>
      hAlike.addConditions conditions

/- A filter walks over its predicate, then settles the parts. -/
theorem filter_eq
    (predicate : Expr) :
    filter resolver predicate = (do
      let parts ← walk (predicate.visitPredicate resolver)
      settle parts) := by
  unfold filter settle
  congr 1
  funext parts
  congr 1
  funext conditions
  cases conditions with
  | nil => rfl
  | cons first others => rfl

/-
  Predicates are taken up alike where their parts do the same.
-/
theorem filter_matched
    {p q : Expr}
    (hParts : Matched Scope.Alike
      (fun ps qs => Part.effects ps = Part.effects qs) Eq
      (p.visitPredicate resolver)
      (q.visitPredicate resolver)) :
    Matched Draft.Alike Eq Eq (filter resolver p)
      (filter resolver q) := by
  rw [filter_eq, filter_eq]
  exact (walk_matched hParts).bind fun _ _ => settle_matched

/- Two keys may differ in the text of their failure only. -/
theorem sortColumn_matched
    {E : QueryError → QueryError → Prop}
    {k l : Expr}
    (hErrors : E k.unsupported l.unsupported)
    (part : Part) :
    Matched Draft.Alike Eq E (sortColumn k part)
      (sortColumn l part) := by
  cases part with
  | column role name => exact matched_pure rfl
  | literal | binary | call | indexed | timeBound | blank =>
      exact matched_throw hErrors

/-
  Keys of one direction are taken up alike where they walk to
  the same column.
-/
theorem orderBy_matched
    {E : QueryError → QueryError → Prop}
    {k l : Expr}
    (direction : Direction)
    (hVisits : Matched Scope.Alike Eq E (visit resolver k)
      (visit resolver l))
    (hErrors : E k.unsupported l.unsupported) :
    Matched Draft.Alike Eq E (orderBy resolver ⟨k, direction⟩)
      (orderBy resolver ⟨l, direction⟩) := by
  unfold orderBy
  refine (walk_matched hVisits).bind_same fun part => ?_
  refine (sortColumn_matched hErrors part).bind_same
    fun column => ?_
  refine (walk_matched
    (Walk.bind_matched _)).bind_same fun descending => ?_
  exact modifyPipeline_matched fun _ _ => rfl

/- A clause is taken up alike in alike drafts. -/
theorem clause_matched
    (c : BodyClause) :
    Matched Draft.Alike Eq Eq (clause resolver c)
      (clause resolver c) := by
  cases c with
  | filter predicate =>
      exact filter_matched
        ((visitPredicate_matched resolver predicate).mono
          (fun _ _ => congrArg _) fun _ _ => id)
  | order keys =>
      exact matched_forM (List.forall₂_same.mpr
        fun key _ => orderBy_matched key.direction
          (visit_matched key.expr) rfl)

/- A count is refused or bound alike. -/
theorem count_matched
    (op : ResultOperator)
    (n : Expr) :
    Matched Draft.Alike Eq Eq (count op n) (count op n) := by
  unfold count
  split
  · split
    · exact walk_matched (Walk.bind_matched _)
    · exact matched_throw rfl
  · exact matched_throw rfl

/- Rows are counted from the front alike. -/
theorem countFront_matched
    (op : ResultOperator)
    (n : Expr)
    {f : String → Pipeline → Pipeline}
    (hKeeps : ∀ name p filters,
      f name (p.withFilters filters) =
        (f name p).withFilters filters) :
    Matched Draft.Alike Eq Eq
      (do
        if (← get).tailTaken then throw op.unsupported
        let name ← count op n
        modifyPipeline (f name) : Drafting Unit)
      (do
        if (← get).tailTaken then throw op.unsupported
        let name ← count op n
        modifyPipeline (f name) : Drafting Unit) := by
  refine matched_get.bind fun d e hAlike => ?_
  rw [hAlike.tailTaken]
  split
  · exact (matched_throw rfl).bind_same fun _ =>
      (count_matched op n).bind_same fun name =>
        modifyPipeline_matched (hKeeps name)
  · exact (count_matched op n).bind_same fun name =>
      modifyPipeline_matched (hKeeps name)

/- An operator is taken up alike in alike drafts. -/
theorem operator_matched
    (op : ResultOperator) :
    Matched Draft.Alike Eq Eq (operator op)
      (operator op) := by
  cases op with
  | take n => exact countFront_matched _ n fun _ _ _ => rfl
  | skip n => exact countFront_matched _ n fun _ _ _ => rfl
  | takeLast n =>
      refine (count_matched _ n).bind_same fun name => ?_
      refine (modifyPipeline_matched fun _ _ => rfl).bind_same
        fun _ => ?_
      exact matched_modify fun _ _ hAlike =>
        ⟨hAlike.scope, hAlike.pipeline, rfl⟩
  | any => exact matched_pure rfl
  | count | longCount =>
      exact modifyPipeline_matched fun _ _ => rfl
  | first | last | single | sum | min | max | average
  | distinct => exact matched_throw rfl

/- Every clause matches itself, so all of them do. -/
theorem clauses_matched
    (resolver : Resolver)
    (clauses : List BodyClause) :
    Matched Draft.Alike Eq Eq (clauses.forM (clause resolver))
      (clauses.forM (clause resolver)) :=
  matched_forM (List.forall₂_same.mpr
    fun c _ => clause_matched c)

theorem operators_matched
    (operators : List ResultOperator) :
    Matched Draft.Alike Eq Eq (operators.forM operator)
      (operators.forM operator) :=
  matched_forM (List.forall₂_same.mpr
    fun op _ => operator_matched op)

end Drafting

end TypedFlux

------------------------------------------------------------
-- Whole Queries
------------------------------------------------------------

namespace TypedFlux

/- The script of a query, and how its rows are reduced. -/
def Query.translate
    (bucket : String)
    (resolver : Resolver)
    (q : Query) :
    Except QueryError (Script × Option Reduction) :=
  (Draft.ofQuery bucket resolver q).map Draft.outcome

namespace Query

open Step Drafting

variable {resolver : Resolver}
variable {q r : Query}

/- Queries that match step by step are translated alike. -/
theorem translate_matched
    {E : QueryError → QueryError → Prop}
    (bucket : String)
    (hBody : Matched Draft.Alike Eq E
      (q.body.forM (clause resolver))
      (r.body.forM (clause resolver)))
    (hOperators : Matched Draft.Alike Eq E
      (q.operators.forM operator)
      (r.operators.forM operator)) :
    (∃ result, q.translate bucket resolver = .ok result ∧
        r.translate bucket resolver = .ok result) ∨
      ∃ e f, q.translate bucket resolver = .error e ∧
        r.translate bucket resolver = .error f ∧ E e f := by
  have hEnds := (hBody.bind_same fun _ => hOperators)
    (Draft.new bucket) (Draft.new bucket) (.refl _)
  change Agree _ _ _
    ((Draft.new bucket).addQuery resolver q)
    ((Draft.new bucket).addQuery resolver r) at hEnds
  unfold translate Draft.ofQuery
  generalize (Draft.new bucket).addQuery resolver q = left
    at hEnds ⊢
  generalize (Draft.new bucket).addQuery resolver r = right
    at hEnds ⊢
  cases hEnds with
  | ok _ hAlike =>
      exact .inl ⟨_, congrArg _ hAlike.outcome_eq, rfl⟩
  | error hErrors => exact .inr ⟨_, _, rfl, rfl, hErrors⟩

/- Where errors may differ, the results are still the same. -/
theorem toOption_translate_eq
    (bucket : String)
    (hBody : Matched Draft.Alike Eq (fun _ _ => True)
      (q.body.forM (clause resolver))
      (r.body.forM (clause resolver)))
    (hOperators : Matched Draft.Alike Eq (fun _ _ => True)
      (q.operators.forM operator)
      (r.operators.forM operator)) :
    (q.translate bucket resolver).toOption =
      (r.translate bucket resolver).toOption := by
  rcases translate_matched bucket hBody hOperators with
    ⟨result, hFirst, hSecond⟩ | ⟨e, f, hFirst, hSecond, _⟩
  · rw [hFirst, hSecond]
  · rw [hFirst, hSecond]
    rfl

end Query

end TypedFlux
