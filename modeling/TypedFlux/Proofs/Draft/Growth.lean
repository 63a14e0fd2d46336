import TypedFlux.Proofs.Draft.Invariant
import TypedFlux.Proofs.Draft.Matching

/-
  Drafts that only grow.

  A query adds to a draft behind what is there already, even if
  it fails midway.  A predicate that fails may have named some
  constants and bounded the range by then; it adds nothing else.

  Key definitions include:
    * `Draft.Retains`

  Key theorems include:
    * `Draft.Routes.pipeline_eq`
    * `Drafting.filter_eq_error_pipeline`
    * `Drafting.clause_retains`, `Drafting.operator_retains`
    * `Draft.addQuery_retains`
-/

------------------------------------------------------------
-- Routes and the Pipeline
------------------------------------------------------------

namespace TypedFlux

/- A comparison of the time sets bounds and nothing else. -/
theorem Range.pipeline_of_restrict
    {r range : Range}
    {part : Part}
    {events : List Event}
    (hRange : r.restrict part = .ok (range, events)) :
    ∃ start? stop?,
      range.pipeline = r.pipeline.setRange start? stop? := by
  have hEffect := r.restrict_timeEffect part
  rw [hRange] at hEffect
  cases hTime : part.timeEffect with
  | error e =>
      rw [hTime] at hEffect
      cases hEffect
  | ok effect =>
      rw [hTime] at hEffect
      exact ⟨_, _, Except.ok.inj hEffect⟩

namespace Draft

variable {d d' : Draft}

/- Of the pipeline, conjuncts change the range alone. -/
theorem Routes.pipeline_eq
    {parts : List Part}
    {conditions : List String}
    (hRoutes : Routes parts d conditions d') :
    ∃ start? stop?,
      d'.pipeline = d.pipeline.setRange start? stop? := by
  induction hRoutes with
  | nil d => exact ⟨none, none, d.pipeline.setRange_none.symm⟩
  | @bound _ _ _ _ d _ range _ _ hRange _ ih =>
      rcases Range.pipeline_of_restrict hRange with
        ⟨start?, stop?, hFirst⟩
      rcases ih with ⟨start'?, stop'?, hRest⟩
      change _ = range.pipeline.setRange _ _ at hRest
      rw [hFirst, Pipeline.setRange_setRange] at hRest
      exact ⟨_, _, hRest⟩
  | blank _ ih => exact ih
  | condition _ _ _ ih => exact ih

theorem Routes.tailTaken_eq
    {parts : List Part}
    {conditions : List String}
    (hRoutes : Routes parts d conditions d') :
    d'.tailTaken = d.tailTaken := by
  rcases hRoutes.eq_narrow with ⟨events, hNarrow⟩
  rw [hNarrow]
  rfl

end Draft

------------------------------------------------------------
-- Predicates that Fail
------------------------------------------------------------

namespace Drafting

open Draft

variable {resolver : Resolver}

/-
  A predicate that fails leaves the pipeline as it was, but for
  the bounds of the range.
-/
theorem filter_eq_error_pipeline
    {predicate : Expr}
    {error : QueryError}
    {d d' : Draft}
    (hFilter : filter resolver predicate d =
      (.error error, d')) :
    (∃ start? stop?,
      d'.pipeline = d.pipeline.setRange start? stop?) ∧
    d'.tailTaken = d.tailTaken := by
  rcases filter_eq_error hFilter with
    ⟨t, _, rfl⟩ | ⟨parts, s, _, hStops⟩
  · exact ⟨⟨none, none, d.pipeline.setRange_none.symm⟩, rfl⟩
  · rcases hStops with ⟨before, _, _, _, _, hRoutes, _⟩
    exact ⟨hRoutes.pipeline_eq, hRoutes.tailTaken_eq⟩

end Drafting

end TypedFlux

------------------------------------------------------------
-- Growth
------------------------------------------------------------

namespace TypedFlux

namespace Draft

/- A draft has all of another, and what is new stands behind it. -/
structure Retains (d d' : Draft) : Prop where
  scope : d.scope.Extends d'.scope
  filters : d.pipeline.filters <+: d'.pipeline.filters
  sorts : d.pipeline.sorts <+: d'.pipeline.sorts

variable {d u d' : Draft}

theorem retains_refl
    (d : Draft) :
    d.Retains d where
  scope := Scope.extends_refl d.scope
  filters := List.prefix_rfl
  sorts := List.prefix_rfl

/- Drafts are retained step by step. -/
theorem Retains.trans
    (hFirst : d.Retains u)
    (hSecond : u.Retains d') :
    d.Retains d' where
  scope := hFirst.scope.trans hSecond.scope
  filters := hFirst.filters.trans hSecond.filters
  sorts := hFirst.sorts.trans hSecond.sorts

/- A scope that grows retains the draft. -/
theorem retains_scope
    {s : Scope}
    (hExtends : d.scope.Extends s) :
    d.Retains { d with scope := s } where
  scope := hExtends
  filters := List.prefix_rfl
  sorts := List.prefix_rfl

/- So do conjuncts, whatever they restrict. -/
theorem Routes.retains
    {parts : List Part}
    {conditions : List String}
    (hRoutes : Routes parts d conditions d') :
    d.Retains d' := by
  rcases hRoutes.pipeline_eq with ⟨start?, stop?, hPipeline⟩
  constructor
  · unfold Scope.Extends Scope.Numbers
    rw [hRoutes.options_eq]
    exact Scope.extends_refl d.scope
  · rw [hPipeline]
    exact List.prefix_rfl
  · rw [hPipeline]
    exact List.prefix_rfl

/- Conditions are added behind those there are. -/
theorem retains_addConditions
    (d : Draft)
    (conditions : List String) :
    d.Retains (d.addConditions conditions) := by
  cases conditions with
  | nil => exact retains_refl d
  | cons first others =>
      exact
        { scope := Scope.extends_refl d.scope
          filters := List.prefix_append _ _
          sorts := List.prefix_rfl }

/- So are sorts. -/
theorem retains_addSort
    (d : Draft)
    (column descending : String) :
    d.Retains
      (d.mapPipeline (·.addSort column descending)) where
  scope := Scope.extends_refl d.scope
  filters := List.prefix_rfl
  sorts := List.prefix_append _ _

end Draft

namespace Drafting

open Draft TypedFlux.Expr

variable {resolver : Resolver}

/-
  Whether they fail or not, the steps of a query retain the
  draft.
-/
theorem filter_retains
    (predicate : Expr)
    (d : Draft) :
    d.Retains (filter resolver predicate d).2 := by
  rcases hFilter : filter resolver predicate d with
    ⟨error | ⟨⟩, d'⟩
  · rcases filter_eq_error hFilter with
      ⟨t, hFails, rfl⟩ | ⟨parts, s, hVisits, hStops⟩
    · exact retains_scope hFails.extends
    · rcases hStops with ⟨before, _, _, _, _, hRoutes, _⟩
      exact (retains_scope hVisits.extends).trans
        hRoutes.retains
  · rcases filter_eq_ok.mp hFilter with
      ⟨parts, s, conditions, e, hVisits, hRoutes, rfl⟩
    have hRouted := (retains_scope hVisits.extends).trans
      hRoutes.retains
    exact hRouted.trans (e.retains_addConditions conditions)

theorem orderBy_retains
    (key : SortKey)
    (d : Draft) :
    d.Retains (orderBy resolver key d).2 := by
  rcases hOrder : orderBy resolver key d with
    ⟨error | ⟨⟩, d'⟩
  · rcases orderBy_eq_error hOrder with
      ⟨t, hFails, rfl⟩ | ⟨p, s, hVisits, _, _, rfl⟩
    · exact retains_scope hFails.extends
    · exact retains_scope hVisits.extends
  · rcases orderBy_eq_ok.mp hOrder with
      ⟨role, column, s, hVisits, rfl⟩
    have hBound := hVisits.extends.trans
      (s.extends_bind (.bool (key.direction == .descending)))
    exact (retains_scope hBound).trans
      (retains_addSort _ column _)

/- A clause only adds to a draft, even if it fails. -/
theorem clause_retains
    (c : BodyClause)
    (d : Draft) :
    d.Retains (clause resolver c d).2 := by
  cases c with
  | filter predicate => exact filter_retains predicate d
  | order keys =>
      exact Step.forM_keeps
        (fun key u hRetains =>
          hRetains.trans (orderBy_retains key u))
        (retains_refl d)

/- An operator only adds to a draft, even if it fails. -/
theorem operator_retains
    (op : ResultOperator)
    (d : Draft) :
    d.Retains (operator op d).2 := by
  have hBind : ∀ value, d.Retains (d.bind value) :=
    fun value => retains_scope (d.scope.extends_bind value)
  rcases hOperator : operator op d with ⟨error | ⟨⟩, d'⟩
  · rw [(operator_eq_error hOperator).2]
    exact retains_refl d
  · cases operates_iff.mp hOperator with
    | take => exact { hBind _ with }
    | skip => exact { hBind _ with }
    | takeLast => exact { hBind _ with }
    | any => exact retains_refl d
    | count => exact { retains_refl d with }
    | longCount => exact { retains_refl d with }

/- A whole query only adds to a draft. -/
theorem query_retains
    (q : Query)
    (d : Draft) :
    d.Retains (query resolver q d).2 := by
  have hBody : d.Retains (q.body.forM (clause resolver) d).2 :=
    Step.forM_keeps
      (fun c u hRetains => hRetains.trans (clause_retains c u))
      (retains_refl d)
  exact Step.bind_keeps hBody fun _ _ hRetains =>
    Step.forM_keeps
      (fun op u hRetains =>
        hRetains.trans (operator_retains op u))
      hRetains

/- A query ends with the first of its clauses that fails. -/
theorem query_eq_error_of_clause
    {q : Query}
    {before after : List BodyClause}
    {c : BodyClause}
    {error : QueryError}
    {d u u' : Draft}
    (hBody : q.body = before ++ c :: after)
    (hBefore : before.forM (clause resolver) d = (.ok (), u))
    (hClause : clause resolver c u = (.error error, u')) :
    query resolver q d = (.error error, u') := by
  apply Step.bind_eq_error.mpr
  left
  rw [hBody, List.forM_eq_forM, List.forM_append]
  refine (Step.bind_of_ok hBefore).trans ?_
  exact Step.bind_eq_error.mpr (.inl hClause)

end Drafting

end TypedFlux

------------------------------------------------------------
-- Sequences of Queries
------------------------------------------------------------

namespace TypedFlux

namespace Draft

/- So does any number of queries. -/
theorem retains_addAll
    (d : Draft)
    (resolver : Resolver)
    (qs : List Query) :
    d.Retains (d.addAll resolver qs) := by
  induction qs generalizing d with
  | nil => exact retains_refl d
  | cons q qs ih =>
      exact (Drafting.query_retains q d).trans (ih _)

/-
  Whatever was taken up before a query stays in front of what
  it adds, whether it fails or not.  Where a predicate fails,
  the pipeline stays as it was but for the range.
-/
theorem addQuery_retains
    {bucket : String}
    {resolver : Resolver}
    {qs : List Query}
    {q : Query}
    {d d' : Draft}
    {result : Except QueryError Unit}
    (hReached : (Draft.new bucket).addAll resolver qs = d)
    (hQuery : d.addQuery resolver q = (result, d')) :
    d.scope.options <+: d'.scope.options ∧
    d.script.statements <+: d'.script.statements ∧
    d.pipeline.filters <+: d'.pipeline.filters ∧
    d.pipeline.sorts <+: d'.pipeline.sorts ∧
    ∀ before predicate after u error u',
      q.body = before ++ .filter predicate :: after →
      before.forM (Drafting.clause resolver) d = (.ok (), u) →
      Drafting.clause resolver (.filter predicate) u =
        (.error error, u') →
      result = .error error ∧ d' = u' ∧
      d'.tailTaken = u.tailTaken ∧
      d'.pipeline = { u.pipeline with
        start := d'.pipeline.start
        stop? := d'.pipeline.stop? } := by
  have hRetains : d.Retains (d.addQuery resolver q).2 :=
    Drafting.query_retains q d
  rw [hQuery] at hRetains
  have hNew := (Draft.new bucket).retains_addAll resolver qs
  rw [hReached] at hNew
  rcases hNew.scope _ (new_numbers bucket) with ⟨cs, hNumbers⟩
  have hOptions := hRetains.scope.options_prefix hNumbers
  refine ⟨hOptions, hOptions.map _, hRetains.filters,
    hRetains.sorts, ?_⟩
  intro before predicate after u error u' hBody hBefore hClause
  have hEnd := Drafting.query_eq_error_of_clause hBody hBefore
    hClause
  rcases Prod.mk.inj (hQuery.symm.trans hEnd) with ⟨rfl, rfl⟩
  rcases Drafting.filter_eq_error_pipeline hClause with
    ⟨⟨start?, stop?, hPipeline⟩, hTail⟩
  refine ⟨rfl, rfl, hTail, ?_⟩
  rw [hPipeline]
  rfl

/- A condition, a key and rows from the front. -/
def firstQuery : Query where
  entity := "device"
  body := [
    .filter (.binary .equal (.member "site")
      (.constant (.int 7))),
    .order [⟨.member "level", .descending⟩]]
  operators := [.take (.constant (.int 3))]

/- A condition, then a bound and what bounds no range. -/
def failingQuery : Query where
  entity := "device"
  body := [
    .filter (.binary .equal (.member "level")
      (.constant (.int 8))),
    .filter (.binary .andAlso
      (.binary .greaterThan (.member "at")
        (.constant (.int 9)))
      (.binary .notEqual (.member "at")
        (.constant (.int 1))))]
  operators := [.count]

theorem addQuery_retains_failingQuery :
    ∃ d u d' error,
      (Draft.new "b").addAll deviceResolver [firstQuery] = d ∧
      d.addQuery deviceResolver failingQuery =
        (.error error, d') ∧
      (failingQuery.body.take 1).forM
        (Drafting.clause deviceResolver) d = (.ok (), u) ∧
      d.scope.options <+: d'.scope.options ∧
      d.script.statements <+: d'.script.statements ∧
      d.pipeline.filters <+: d'.pipeline.filters ∧
      d.pipeline.sorts <+: d'.pipeline.sorts ∧
      d'.pipeline = { u.pipeline with
        start := "p7"
        stop? := none } := by
  rcases addQuery_retains (q := failingQuery)
    (rfl : (Draft.new "b").addAll deviceResolver [firstQuery] = _)
    rfl with
    ⟨hOptions, hStatements, hFilters, hSorts, hFails⟩
  have hPipeline := (hFails (failingQuery.body.take 1) _ []
    _ _ _ rfl rfl rfl).2.2.2
  exact ⟨_, _, _, _, rfl, rfl, rfl, hOptions, hStatements,
    hFilters, hSorts, hPipeline⟩

end Draft

end TypedFlux
