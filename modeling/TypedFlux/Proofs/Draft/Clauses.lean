import TypedFlux.Proofs.Draft.Visits

/-
  Clauses and operators that succeed.

  For every step of a draft it is said what the step needs in
  order to succeed, and what the draft is then.

  Key definitions include:
    * `Part.isCondition`
    * `Draft.Routes`

  Key theorems include:
    * `Drafting.routes_iff`
    * `Drafting.filter_eq_ok`
    * `Drafting.orderBy_eq_ok`
    * `Drafting.operates_iff`
-/

------------------------------------------------------------
-- Steps of a Draft
------------------------------------------------------------

namespace TypedFlux

/- The draft after its range was narrowed. -/
def Draft.narrow
    (d : Draft)
    (range : Range)
    (events : List Event) : Draft :=
  { d with
    range
    scope := { d.scope with
      journal := d.scope.journal ++ events } }

namespace Drafting

/- A walk changes the scope of a draft alone. -/
theorem walk_eq_ok
    {α : Type}
    {step : Walk α}
    {a : α}
    {d d' : Draft} :
    walk step d = (.ok a, d') ↔
      ∃ s, step d.scope = (.ok a, s) ∧
        d' = { d with scope := s } := by
  change ((step d.scope).1,
    { d with scope := (step d.scope).2 }) = (.ok a, d') ↔ _
  rcases hStep : step d.scope with ⟨result, scope⟩
  constructor
  · intro hRun
    cases hRun
    exact ⟨scope, rfl, rfl⟩
  · rintro ⟨s, hSame, rfl⟩
    cases hSame
    rfl

theorem modifyPipeline_eq_ok
    {f : Pipeline → Pipeline}
    {a : Unit}
    {d d' : Draft} :
    modifyPipeline f d = (.ok a, d') ↔ d.mapPipeline f = d' :=
  Step.modify_eq_ok

/- A bound narrows the range and notes what it did. -/
theorem restrict_eq_ok
    {part : Part}
    {a : Unit}
    {d d' : Draft} :
    restrict part d = (.ok a, d') ↔
      ∃ range events,
        d.range.restrict part = .ok (range, events) ∧
        d' = d.narrow range events := by
  unfold restrict
  simp only [Step.bind_eq_ok, Step.lift_eq_ok]
  constructor
  · rintro ⟨_, _, hGet, ⟨range, events⟩, u, ⟨hRange, rfl⟩, hSet⟩
    cases hGet
    cases hSet
    exact ⟨range, events, hRange, rfl⟩
  · rintro ⟨range, events, hRange, rfl⟩
    exact ⟨d, d, rfl, (range, events), d, ⟨hRange, rfl⟩, rfl⟩

end Drafting

end TypedFlux

------------------------------------------------------------
-- Routes
------------------------------------------------------------

namespace TypedFlux

/- Whether a part belongs into the filter. -/
def Part.isCondition : Part → Bool
  | .timeBound _ _ _ | .blank => false
  | _ => true

/- Parts narrow the range or become conditions. -/
inductive Draft.Routes :
    List Part → Draft → List String → Draft → Prop where
  | nil
      (d : Draft) :
      Routes [] d [] d
  | bound
      {left right : Option Part}
      {op : BinaryOp}
      {rest : List Part}
      {d d' : Draft}
      {range : Range}
      {events : List Event}
      {conditions : List String} :
      d.range.restrict (.timeBound left right op) =
        .ok (range, events) →
      Routes rest (d.narrow range events) conditions d' →
          Routes (.timeBound left right op :: rest) d
            conditions d'
  | blank
      {rest : List Part}
      {d d' : Draft}
      {conditions : List String} :
      Routes rest d conditions d' →
        Routes (.blank :: rest) d conditions d'
  | condition
      {part : Part}
      {rest : List Part}
      {d d' : Draft}
      {text : String}
      {conditions : List String} :
      part.isCondition = true → part.text = .ok text →
        Routes rest d conditions d' →
          Routes (part :: rest) d (text :: conditions) d'

/- Routing changes the range and tells of it, and no more. -/
theorem Draft.Routes.eq_narrow
    {parts : List Part}
    {conditions : List String}
    {d d' : Draft}
    (hRoutes : Draft.Routes parts d conditions d') :
    ∃ events, d' = d.narrow d'.range events := by
  induction hRoutes with
  | nil d => exact ⟨[], by simp [Draft.narrow]⟩
  | @bound _ _ _ _ _ _ _ events _ _ _ ih =>
      rcases ih with ⟨later, hNarrow⟩
      refine ⟨events ++ later, hNarrow.trans ?_⟩
      simp [Draft.narrow]
  | blank _ ih => exact ih
  | condition _ _ _ ih => exact ih

namespace Drafting

open Draft

/- A part that is a condition goes to the filter. -/
theorem route_condition
    {part : Part}
    {rest : List Part}
    (hCondition : part.isCondition = true) :
    route (part :: rest) = (do
      let condition ← (part.text : Except _ _)
      let conditions ← route rest
      return condition :: conditions) := by
  cases part with
  | timeBound | blank => cases hCondition
  | literal | column | binary | call | indexed => rfl

theorem route_condition_eq_ok
    {part : Part}
    {rest : List Part}
    {conditions : List String}
    {d d' : Draft}
    (hCondition : part.isCondition = true) :
    route (part :: rest) d = (.ok conditions, d') ↔
      ∃ text others, part.text = .ok text ∧
        route rest d = (.ok others, d') ∧
        conditions = text :: others := by
  rw [route_condition hCondition]
  simp only [Step.bind_eq_ok, Step.lift_eq_ok,
    Step.pure_eq_ok]
  constructor
  · rintro ⟨text, _, ⟨hText, rfl⟩, others, _, hRest, rfl, rfl⟩
    exact ⟨text, others, hText, hRest, rfl⟩
  · rintro ⟨text, others, hText, hRest, rfl⟩
    exact ⟨text, d, ⟨hText, rfl⟩, others, d', hRest, rfl, rfl⟩

/- Parts are routed exactly along these rules. -/
theorem routes_iff
    {parts : List Part}
    {conditions : List String}
    {d d' : Draft} :
    route parts d = (.ok conditions, d') ↔
      Routes parts d conditions d' := by
  induction parts generalizing d conditions with
  | nil =>
      simp only [route, Step.pure_eq_ok]
      constructor
      · rintro ⟨rfl, rfl⟩
        exact .nil d
      · intro hRoutes
        cases hRoutes with
        | nil => exact ⟨rfl, rfl⟩
  | cons part rest ih =>
      by_cases hCondition : part.isCondition = true
      · rw [route_condition_eq_ok hCondition]
        constructor
        · rintro ⟨text, others, hText, hRest, rfl⟩
          exact .condition hCondition hText (ih.mp hRest)
        · intro hRoutes
          cases hRoutes with
          | bound => cases hCondition
          | blank => cases hCondition
          | condition _ hText hRest =>
              exact ⟨_, _, hText, ih.mpr hRest, rfl⟩
      · cases part with
        | timeBound left right op =>
            simp only [route, Step.bind_eq_ok, restrict_eq_ok]
            constructor
            · rintro ⟨_, _, ⟨range, events, hRange, rfl⟩, hRest⟩
              exact .bound hRange (ih.mp hRest)
            · intro hRoutes
              cases hRoutes with
              | bound hRange hRest =>
                  exact ⟨(), _, ⟨_, _, hRange, rfl⟩,
                    ih.mpr hRest⟩
              | condition hOwn _ _ => cases hOwn
        | blank =>
            simp only [route]
            constructor
            · intro hRest
              exact .blank (ih.mp hRest)
            · intro hRoutes
              cases hRoutes with
              | blank hRest => exact ih.mpr hRest
              | condition hOwn _ _ => cases hOwn
        | literal name => exact absurd rfl hCondition
        | column role name => exact absurd rfl hCondition
        | binary op left right => exact absurd rfl hCondition
        | call function args => exact absurd rfl hCondition
        | indexed key accessor => exact absurd rfl hCondition

end Drafting

end TypedFlux

------------------------------------------------------------
-- Clauses
------------------------------------------------------------

namespace TypedFlux

/- The draft after conditions were asked of the rows. -/
def Draft.addConditions
    (d : Draft) : List String → Draft
  | [] => d
  | conditions =>
      d.mapPipeline (·.addFilter (" and ".intercalate conditions))

/- The draft after a constant got a name. -/
def Draft.bind
    (d : Draft)
    (value : Value) : Draft :=
  { d with scope := d.scope.bind value }

namespace Drafting

open Draft TypedFlux.Expr

variable {resolver : Resolver}

/- A constant gets the next name. -/
theorem bind_eq_ok
    {value : Value}
    {name : String}
    {d d' : Draft} :
    walk (Walk.bind value) d = (.ok name, d') ↔
      d.scope.options.nextName = name ∧ d.bind value = d' := by
  simp only [walk_eq_ok, Walk.bind_eq_ok]
  constructor
  · rintro ⟨s, ⟨hName, rfl⟩, rfl⟩
    exact ⟨hName, rfl⟩
  · rintro ⟨hName, rfl⟩
    exact ⟨_, ⟨hName, rfl⟩, rfl⟩

/-
  A filter visits all conjuncts first, then routes their
  parts, and adds the conditions last.
-/
theorem filter_eq_ok
    {predicate : Expr}
    {a : Unit}
    {d d' : Draft} :
    filter resolver predicate d = (.ok a, d') ↔
      ∃ parts s conditions e,
        VisitsAll resolver predicate.conjuncts d.scope parts
          s ∧
        Routes parts { d with scope := s } conditions e ∧
        d' = e.addConditions conditions := by
  simp only [filter, visitPredicate, Step.bind_eq_ok,
    walk_eq_ok, visitsAll_iff, routes_iff]
  constructor
  · rintro ⟨parts, _, ⟨s, hVisits, rfl⟩, conditions, e, hRoutes,
      hAdd⟩
    refine ⟨parts, s, conditions, e, hVisits, hRoutes, ?_⟩
    cases conditions with
    | nil => exact (Step.pure_eq_ok.mp hAdd).2.symm
    | cons first others =>
        exact (modifyPipeline_eq_ok.mp hAdd).symm
  · rintro ⟨parts, s, conditions, e, hVisits, hRoutes, rfl⟩
    refine ⟨parts, _, ⟨s, hVisits, rfl⟩, conditions, e, hRoutes,
      ?_⟩
    cases conditions with
    | nil => exact Step.pure_eq_ok.mpr ⟨rfl, rfl⟩
    | cons first others => exact modifyPipeline_eq_ok.mpr rfl

/- Only a column can be a key. -/
theorem sortColumn_eq_ok
    {key : Expr}
    {part : Part}
    {column : String}
    {d d' : Draft} :
    sortColumn key part d = (.ok column, d') ↔
      (∃ role, part = .column role column) ∧ d = d' := by
  cases part with
  | column role name =>
      simp only [sortColumn, Step.pure_eq_ok]
      constructor
      · rintro ⟨rfl, rfl⟩
        exact ⟨⟨role, rfl⟩, rfl⟩
      · rintro ⟨⟨_, hSame⟩, rfl⟩
        cases hSame
        exact ⟨rfl, rfl⟩
  | literal | binary | call | indexed | timeBound | blank =>
      constructor
      · intro hThrow
        exact absurd hThrow Step.throw_ne_ok
      · rintro ⟨⟨_, hSame⟩, _⟩
        cases hSame

/- A key is visited before its direction gets a name. -/
theorem orderBy_eq_ok
    {key : SortKey}
    {a : Unit}
    {d d' : Draft} :
    orderBy resolver key d = (.ok a, d') ↔
      ∃ role column s,
        Visits resolver key.expr d.scope
          (.column role column) s ∧
        d' = (Draft.bind { d with scope := s }
          (.bool (key.direction == .descending))).mapPipeline
            (·.addSort column s.options.nextName) := by
  simp only [orderBy, Step.bind_eq_ok, walk_eq_ok, visits_iff,
    sortColumn_eq_ok, Walk.bind_eq_ok, modifyPipeline_eq_ok]
  constructor
  · rintro ⟨part, _, ⟨s, hVisits, rfl⟩, column, _,
      ⟨⟨role, rfl⟩, rfl⟩, name, _, ⟨t, ⟨rfl, rfl⟩, rfl⟩, rfl⟩
    exact ⟨role, column, s, hVisits, rfl⟩
  · rintro ⟨role, column, s, hVisits, rfl⟩
    exact ⟨_, _, ⟨s, hVisits, rfl⟩, column, _,
      ⟨⟨role, rfl⟩, rfl⟩, _, _, ⟨_, ⟨rfl, rfl⟩, rfl⟩, rfl⟩

end Drafting

end TypedFlux

------------------------------------------------------------
-- Operators
------------------------------------------------------------

namespace TypedFlux

/- An operator is taken up. -/
inductive Draft.Operates :
    ResultOperator → Draft → Draft → Prop where
  | take
      {n : Expr}
      {value : Value}
      {d : Draft} :
      d.tailTaken = false → Drafting.constant? n = some value →
        Drafting.isCount value = true →
          Operates (.take n) d ((d.bind value).mapPipeline
            (·.setLimit d.scope.options.nextName))
  | skip
      {n : Expr}
      {value : Value}
      {d : Draft} :
      d.tailTaken = false → Drafting.constant? n = some value →
        Drafting.isCount value = true →
          Operates (.skip n) d ((d.bind value).mapPipeline
            (·.setOffset d.scope.options.nextName))
  | takeLast
      {n : Expr}
      {value : Value}
      {d : Draft} :
      Drafting.constant? n = some value →
        Drafting.isCount value = true →
          Operates (.takeLast n) d
            { (d.bind value).mapPipeline
                (·.setTail d.scope.options.nextName) with
              tailTaken := true }
  | any
      (d : Draft) :
      Operates .any d d
  | count
      (d : Draft) :
      Operates .count d (d.mapPipeline (·.setReduction .count))
  | longCount
      (d : Draft) :
      Operates .longCount d
        (d.mapPipeline (·.setReduction .count))

namespace Drafting

open Draft

/- A count is a constant that is not negative. -/
theorem count_eq_ok
    {op : ResultOperator}
    {n : Expr}
    {name : String}
    {d d' : Draft} :
    count op n d = (.ok name, d') ↔
      ∃ value, constant? n = some value ∧
        isCount value = true ∧
        d.scope.options.nextName = name ∧
        d.bind value = d' := by
  unfold count
  cases hConstant : constant? n with
  | none =>
      simp only [Step.throw_ne_ok, reduceCtorEq, false_and,
        exists_false]
  | some value =>
      cases hCount : isCount value with
      | false => simp [hCount, Step.throw_ne_ok]
      | true => simp [hCount, bind_eq_ok]

/- Rows are counted from the front only before the tail. -/
theorem countFront_eq_ok
    {op : ResultOperator}
    {n : Expr}
    {f : String → Pipeline → Pipeline}
    {a : Unit}
    {d d' : Draft} :
    (do
      if (← get).tailTaken then throw op.unsupported
      let name ← count op n
      modifyPipeline (f name) : Drafting Unit) d = (.ok a, d') ↔
      d.tailTaken = false ∧
        ∃ value, constant? n = some value ∧
          isCount value = true ∧
          (d.bind value).mapPipeline
            (f d.scope.options.nextName) = d' := by
  rw [Step.bind_eq_ok]
  constructor
  · rintro ⟨_, _, hGet, hRest⟩
    cases hGet
    cases hTail : d.tailTaken with
    | true =>
        simp only [hTail, if_true, Step.bind_eq_ok] at hRest
        rcases hRest with ⟨_, _, hThrow, _⟩
        exact absurd hThrow Step.throw_ne_ok
    | false =>
        simp only [hTail, Bool.false_eq_true, if_false,
          Step.bind_eq_ok, count_eq_ok, modifyPipeline_eq_ok]
          at hRest
        rcases hRest with
          ⟨_, _, ⟨value, hConstant, hCount, rfl, rfl⟩, rfl⟩
        exact ⟨rfl, value, hConstant, hCount, rfl⟩
  · rintro ⟨hTail, value, hConstant, hCount, rfl⟩
    refine ⟨d, d, rfl, ?_⟩
    simp only [hTail, Bool.false_eq_true, if_false,
      Step.bind_eq_ok, count_eq_ok, modifyPipeline_eq_ok]
    exact ⟨_, _, ⟨value, hConstant, hCount, rfl, rfl⟩, rfl⟩

/- The operators, by what each one does. -/
theorem operates_of_operator
    {op : ResultOperator}
    {a : Unit}
    {d d' : Draft}
    (hOperator : operator op d = (.ok a, d')) :
    Operates op d d' := by
  cases op with
  | take n =>
      rcases countFront_eq_ok.mp hOperator with
        ⟨hTail, value, hConstant, hCount, rfl⟩
      exact .take hTail hConstant hCount
  | skip n =>
      rcases countFront_eq_ok.mp hOperator with
        ⟨hTail, value, hConstant, hCount, rfl⟩
      exact .skip hTail hConstant hCount
  | takeLast n =>
      simp only [operator, Step.bind_eq_ok, count_eq_ok,
        modifyPipeline_eq_ok, Step.modify_eq_ok] at hOperator
      rcases hOperator with ⟨_, _,
        ⟨value, hConstant, hCount, rfl, rfl⟩, _, _, rfl, rfl⟩
      exact .takeLast hConstant hCount
  | any =>
      cases hOperator
      exact .any d
  | count =>
      cases modifyPipeline_eq_ok.mp hOperator
      exact .count d
  | longCount =>
      cases modifyPipeline_eq_ok.mp hOperator
      exact .longCount d
  | first | last | single | sum | min | max | average
  | distinct => exact absurd hOperator Step.throw_ne_ok

theorem operator_of_operates
    {op : ResultOperator}
    {d d' : Draft}
    (hOperates : Operates op d d') :
    operator op d = (.ok (), d') := by
  cases hOperates with
  | take hTail hConstant hCount =>
      exact countFront_eq_ok.mpr
        ⟨hTail, _, hConstant, hCount, rfl⟩
  | skip hTail hConstant hCount =>
      exact countFront_eq_ok.mpr
        ⟨hTail, _, hConstant, hCount, rfl⟩
  | takeLast hConstant hCount =>
      simp only [operator, Step.bind_eq_ok, count_eq_ok,
        modifyPipeline_eq_ok, Step.modify_eq_ok]
      exact ⟨_, _, ⟨_, hConstant, hCount, rfl, rfl⟩, (), _, rfl,
        rfl⟩
  | any => rfl
  | count => rfl
  | longCount => rfl

/- Operators succeed exactly along these rules. -/
theorem operates_iff
    {op : ResultOperator}
    {a : Unit}
    {d d' : Draft} :
    operator op d = (.ok a, d') ↔ Operates op d d' :=
  ⟨operates_of_operator, operator_of_operates⟩

end Drafting

------------------------------------------------------------
-- Whole Queries
------------------------------------------------------------

/- A draft takes up the clauses, then the operators. -/
theorem Draft.ofQuery_eq_ok
    {bucket : String}
    {resolver : Resolver}
    {q : Query}
    {d : Draft} :
    Draft.ofQuery bucket resolver q = .ok d ↔
      ∃ e,
        q.body.forM (Drafting.clause resolver)
          (Draft.new bucket) = (.ok PUnit.unit, e) ∧
        q.operators.forM Drafting.operator e =
          (.ok PUnit.unit, d) := by
  have hQuery : Drafting.query resolver q (Draft.new bucket) =
      (.ok PUnit.unit, d) ↔ _ := Step.bind_eq_ok
  unfold Draft.ofQuery Draft.addQuery
  constructor
  · intro hDraft
    rcases hRun : Drafting.query resolver q (Draft.new bucket)
      with ⟨_ | ⟨⟩, d'⟩
    · rw [hRun] at hDraft
      cases hDraft
    · rw [hRun] at hDraft
      cases hDraft
      rcases hQuery.mp hRun with ⟨⟨⟩, e, hBody, hOperators⟩
      exact ⟨e, hBody, hOperators⟩
  · rintro ⟨e, hBody, hOperators⟩
    rw [hQuery.mpr ⟨PUnit.unit, e, hBody, hOperators⟩]

end TypedFlux
