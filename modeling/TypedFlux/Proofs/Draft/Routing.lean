import TypedFlux.Proofs.Draft.Failures
import TypedFlux.Proofs.Draft.Rendering

/-
  Where the conjuncts of a query go.

  A conjunct either bounds the range or becomes a condition in
  the filter, and which of both can be told from the query
  alone.  The conditions keep their order, and of the bounds
  the last one stays.

  Key definitions include:
    * `Conjunct`, `Query.conjuncts`
    * `Conjunct.conditions`, `Conjunct.bound?`
    * `Draft.Parts`

  Key theorems include:
    * `Draft.Routes.parts_eq`
    * `Drafting.clauses_parts`, `Draft.ofQuery_parts`
    * `Draft.query_script`
-/

------------------------------------------------------------
-- Conjuncts and their Places
------------------------------------------------------------

namespace TypedFlux

/- A conjunct; `before` many constants are in front of it. -/
structure Conjunct where
  before : Nat
  expr : Expr

namespace Conjunct

/- The text of a conjunct in the filter. -/
def text
    (resolver : Resolver)
    (c : Conjunct) : String :=
  c.expr.flux resolver c.before

/- The variable of its first constant, a bound's only one. -/
def name (c : Conjunct) : String :=
  Variables.nameAfter c.before

/- Expressions behind `n` constants. -/
def ofExprs
    (resolver : Resolver) : Nat → List Expr → List Conjunct
  | _, [] => []
  | n, e :: rest =>
      ⟨n, e⟩
        :: ofExprs resolver
          (n + (e.constants resolver false).length) rest

/- The conditions among conjuncts, in their order. -/
def conditions
    (resolver : Resolver)
    (cs : List Conjunct) : List String :=
  (cs.filter fun c => !c.expr.isBound resolver).map
    (·.text resolver)

/- The variable that sets a bound last. -/
def bound?
    (resolver : Resolver)
    (bound : Bound)
    (cs : List Conjunct) : Option String :=
  (cs.filter fun c =>
    (c.expr.bounds resolver).contains bound).getLast?.map name

variable {resolver : Resolver}

/- Conditions are joined in the order of the conjuncts. -/
theorem conditions_append
    (cs ds : List Conjunct) :
    conditions resolver (cs ++ ds) =
      conditions resolver cs ++ conditions resolver ds := by
  simp [conditions]

/- A bound adds nothing to the filter. -/
theorem conditions_cons_of_bound
    {c : Conjunct}
    {cs : List Conjunct}
    (hBound : c.expr.isBound resolver = true) :
    conditions resolver (c :: cs) = conditions resolver cs := by
  simp [conditions, hBound]

/- Any other conjunct adds its own text. -/
theorem conditions_cons_of_condition
    {c : Conjunct}
    {cs : List Conjunct}
    (hBound : c.expr.isBound resolver = false) :
    conditions resolver (c :: cs) =
      c.text resolver :: conditions resolver cs := by
  simp [conditions, hBound]

/-
  The later conjuncts decide, if they bound this side at all.
-/
theorem bound?_append
    (bound : Bound)
    (cs ds : List Conjunct) :
    bound? resolver bound (cs ++ ds) =
      (bound? resolver bound ds).or
        (bound? resolver bound cs) := by
  simp [bound?, Option.map_or]

/- What one conjunct assigns to a bound. -/
theorem bound?_singleton
    (bound : Bound)
    (c : Conjunct) :
    bound? resolver bound [c] =
      bound.assigned? c.name (c.expr.bounds resolver) := by
  by_cases hBound : bound ∈ c.expr.bounds resolver
  · simp [bound?, Bound.assigned?, hBound]
  · simp [bound?, Bound.assigned?, hBound]

theorem bound?_cons
    (bound : Bound)
    (c : Conjunct)
    (cs : List Conjunct) :
    bound? resolver bound (c :: cs) =
      (bound? resolver bound cs).or
        (bound.assigned? c.name (c.expr.bounds resolver)) := by
  rw [← bound?_singleton]
  exact bound?_append bound [c] cs

/- No conjunct is lost or added, and the order stays. -/
theorem expr_ofExprs
    (n : Nat)
    (es : List Expr) :
    (ofExprs resolver n es).map Conjunct.expr = es := by
  induction es generalizing n with
  | nil => rfl
  | cons e es ih => simp [ofExprs, ih]

end Conjunct

/- The conjuncts of a clause. -/
def BodyClause.conjuncts : BodyClause → List Expr
  | .filter predicate => predicate.conjuncts
  | .order _ => []

/- The conjuncts of clauses behind `n` constants. -/
def Conjunct.ofClauses
    (resolver : Resolver) :
    Nat → List BodyClause → List Conjunct
  | _, [] => []
  | n, c :: rest =>
      ofExprs resolver n c.conjuncts
        ++ ofClauses resolver
          (n + (c.constants resolver).length) rest

/- All conjuncts of a query, behind the bucket and the start. -/
def Query.conjuncts
    (resolver : Resolver)
    (q : Query) : List Conjunct :=
  Conjunct.ofClauses resolver 2 q.body

/- The same of a query and all its predicates. -/
theorem Query.expr_conjuncts
    (resolver : Resolver)
    (q : Query) :
    (q.conjuncts resolver).map Conjunct.expr =
      q.predicates.flatMap Expr.conjuncts := by
  unfold conjuncts predicates
  generalize 2 = n
  induction q.body generalizing n with
  | nil => rfl
  | cons c body ih =>
      cases c with
      | filter predicate =>
          simp [Conjunct.ofClauses, BodyClause.conjuncts,
            Conjunct.expr_ofExprs, ih]
      | order keys =>
          simp [Conjunct.ofClauses, BodyClause.conjuncts,
            Conjunct.ofExprs, ih]

namespace Conjunct

variable {resolver : Resolver}

/- The constants behind those in front are its own. -/
theorem constants_ofExprs
    {es : List Expr}
    {c : Conjunct}
    (earlier later : List Constant)
    (hMem : c ∈ ofExprs resolver earlier.length es) :
    c.expr.constants resolver false <+:
      (earlier ++ (Expr.allConstants resolver es
        ++ later)).drop c.before := by
  induction es generalizing earlier with
  | nil => exact absurd hMem List.not_mem_nil
  | cons e es ih =>
      rw [Expr.allConstants, List.append_assoc]
      rcases List.mem_cons.mp hMem with rfl | hMem
      · rw [List.drop_left]
        exact List.prefix_append _ _
      · rw [← List.length_append] at hMem
        rw [← List.append_assoc]
        exact ih (earlier ++ e.constants resolver false) hMem

/-
  The constants of a conjunct stand where it was told that
  they begin, between those before and behind.
-/
theorem constants_ofClauses
    {body : List BodyClause}
    {c : Conjunct}
    (earlier later : List Constant)
    (hMem : c ∈ ofClauses resolver earlier.length body) :
    c.expr.constants resolver false <+:
      (earlier ++ (body.flatMap (·.constants resolver)
        ++ later)).drop c.before := by
  induction body generalizing earlier with
  | nil => exact absurd hMem List.not_mem_nil
  | cons clause body ih =>
      rw [List.flatMap_cons, List.append_assoc]
      rcases List.mem_append.mp hMem with hMem | hMem
      · cases clause with
        | filter predicate =>
            rw [BodyClause.constants,
              ← Expr.allConstants_conjuncts predicate]
            exact constants_ofExprs earlier _ hMem
        | order keys => exact absurd hMem List.not_mem_nil
      · rw [← List.length_append] at hMem
        rw [← List.append_assoc]
        exact ih (earlier ++ clause.constants resolver) hMem

end Conjunct

/-
  The same of a query, whose first constants are the bucket
  and the start.
-/
theorem Query.constants_conjuncts
    (bucket : String)
    (resolver : Resolver)
    (q : Query) :
    ∀ c ∈ q.conjuncts resolver,
      c.expr.constants resolver false <+:
        (q.constants bucket resolver).drop c.before := by
  intro c hMem
  unfold constants
  rw [List.append_assoc]
  exact Conjunct.constants_ofClauses _ _ hMem

end TypedFlux

------------------------------------------------------------
-- Routes
------------------------------------------------------------

namespace TypedFlux

/- A walk finds no part that says nothing. -/
theorem Expr.Visits.ne_blank
    {resolver : Resolver}
    {cs : List Constant}
    {e : Expr}
    {p : Part}
    {s u : Scope}
    (hNumbers : s.Numbers cs)
    (hVisits : Visits resolver e s p u) :
    p ≠ .blank := by
  intro hBlank
  have hBound := hVisits.timeBound?_eq hNumbers
  have hPart := hVisits.fits.condition
  rw [hBlank] at hBound hPart
  rw [isBound_eq_isSome] at hPart
  cases hFound : e.timeBound? resolver with
  | none =>
      rw [hFound] at hPart
      cases hPart
  | some found =>
      rw [hFound] at hBound
      cases hBound

namespace Draft

open TypedFlux.Expr

variable {resolver : Resolver}
variable {cs : List Constant}

/- A conjunct that bounds the range comes before the others. -/
theorem Routes.parts_bound
    {e : Expr}
    {part : Part}
    {s t : Scope}
    {d d' : Draft}
    {range : Range}
    {events : List Event}
    (hNumbers : s.Numbers cs)
    (hFirst : Visits resolver e s part t)
    (hRange : d.range.restrict part = .ok (range, events))
    (own : List Conjunct)
    (hRest : d'.pipeline =
      (d.narrow range events).pipeline.setRange
        (Conjunct.bound? resolver .start own)
        (Conjunct.bound? resolver .stop own)) :
    d'.pipeline = d.pipeline.setRange
      (Conjunct.bound? resolver .start (⟨cs.length, e⟩ :: own))
      (Conjunct.bound? resolver .stop
        (⟨cs.length, e⟩ :: own)) := by
  change d'.pipeline = range.pipeline.setRange _ _ at hRest
  rw [hRest, hFirst.restrict_eq hNumbers hRange,
    Pipeline.setRange_setRange]
  simp only [Conjunct.bound?_cons]
  rfl

/- Routing parts the conjuncts as they tell themselves. -/
theorem Routes.parts_eq
    {es : List Expr}
    {parts : List Part}
    {conditions : List String}
    {s u : Scope}
    {d d' : Draft}
    (hNumbers : s.Numbers cs)
    (hVisits : VisitsAll resolver es s parts u)
    (hRoutes : Routes parts d conditions d') :
    conditions = Conjunct.conditions resolver
        (Conjunct.ofExprs resolver cs.length es) ∧
      d'.pipeline = d.pipeline.setRange
        (Conjunct.bound? resolver .start
          (Conjunct.ofExprs resolver cs.length es))
        (Conjunct.bound? resolver .stop
          (Conjunct.ofExprs resolver cs.length es)) := by
  induction es generalizing s parts conditions d cs with
  | nil =>
      cases hVisits with
      | nil =>
          cases hRoutes with
          | nil =>
              exact ⟨rfl, (Pipeline.setRange_none _).symm⟩
  | cons e es ih =>
      cases hVisits with
      | cons hFirst hOthers =>
          have hNext := hFirst.numbers hNumbers
          have hPart := hFirst.fits.condition
          rw [Conjunct.ofExprs, ← List.length_append]
          cases hRoutes with
          | bound hRange hRest =>
              rcases ih hNext hOthers hRest with
                ⟨hConditions, hPipeline⟩
              have hBound : e.isBound resolver = true := by
                simpa [Part.isCondition] using hPart
              rw [Conjunct.conditions_cons_of_bound hBound]
              exact ⟨hConditions, parts_bound hNumbers hFirst
                hRange _ hPipeline⟩
          | blank hRest =>
              exact absurd rfl (hFirst.ne_blank hNumbers)
          | condition hCondition hText hRest =>
              rcases ih hNext hOthers hRest with
                ⟨hConditions, hPipeline⟩
              rw [hCondition, Bool.true_eq, Bool.not_eq_true']
                at hPart
              rw [hFirst.hasText hNumbers] at hText
              cases hText
              rw [Conjunct.conditions_cons_of_condition hPart,
                ← hConditions]
              refine ⟨rfl, hPipeline.trans ?_⟩
              simp [Conjunct.bound?_cons,
                bounds_of_isBound_false hPart,
                Bound.assigned?]

end Draft

end TypedFlux

------------------------------------------------------------
-- Drafts Part the Conjuncts
------------------------------------------------------------

namespace TypedFlux

/-
  The pipeline of a draft parts these conjuncts.  A clause joins
  its own conditions first, so only the joined text is the same.
-/
structure Draft.Parts
    (resolver : Resolver)
    (d : Draft)
    (cs : List Conjunct) : Prop where
  bucket : d.pipeline.bucket = Variables.nameAfter 0
  start : d.pipeline.start =
    (Conjunct.bound? resolver .start cs).getD
      (Variables.nameAfter 1)
  stop : d.pipeline.stop? = Conjunct.bound? resolver .stop cs
  filtered : d.pipeline.filters = [] ↔
    Conjunct.conditions resolver cs = []
  joined : " and ".intercalate d.pipeline.filters =
    " and ".intercalate (Conjunct.conditions resolver cs)

namespace Draft

variable {resolver : Resolver}
variable {cs : List Conjunct}
variable {d d' : Draft}

/- A new draft has nothing to part. -/
theorem new_parts
    (bucket : String) :
    (Draft.new bucket).Parts resolver [] :=
  ⟨rfl, rfl, rfl, Iff.rfl, rfl⟩

/- What stands behind the filter is of no concern. -/
theorem Parts.of_pipeline
    (hParts : d.Parts resolver cs)
    (hBucket : d'.pipeline.bucket = d.pipeline.bucket)
    (hStart : d'.pipeline.start = d.pipeline.start)
    (hStop : d'.pipeline.stop? = d.pipeline.stop?)
    (hFilters : d'.pipeline.filters = d.pipeline.filters) :
    d'.Parts resolver cs := by
  constructor
  · rw [hBucket, hParts.bucket]
  · rw [hStart, hParts.start]
  · rw [hStop, hParts.stop]
  · rw [hFilters, hParts.filtered]
  · rw [hFilters, hParts.joined]

/- One more condition, which is joined itself. -/
theorem join_concat_join
    {ss ts us : List String}
    (hEmpty : ss = [] ↔ ts = [])
    (hJoined : " and ".intercalate ss = " and ".intercalate ts)
    (hMore : us ≠ []) :
    " and ".intercalate (ss ++ [" and ".intercalate us]) =
      " and ".intercalate (ts ++ us) := by
  by_cases hFirst : ss = []
  · rw [hEmpty.mp hFirst, hFirst]
    rfl
  · have hSecond : ts ≠ [] := fun hNil =>
      hFirst (hEmpty.mpr hNil)
    rw [String.intercalate_append_of_ne_nil hFirst
        (List.cons_ne_nil _ _),
      String.intercalate_append_of_ne_nil hSecond hMore, hJoined]
    rfl

/-
  A clause parts its own conjuncts, and its bounds replace
  those before them.
-/
theorem Parts.addConditions
    {own : List Conjunct}
    {e : Draft}
    (hParts : d.Parts resolver cs)
    (hPipeline : e.pipeline = d.pipeline.setRange
      (Conjunct.bound? resolver .start own)
      (Conjunct.bound? resolver .stop own)) :
    (e.addConditions (Conjunct.conditions resolver own)).Parts
      resolver (cs ++ own) := by
  have hStart : e.pipeline.start =
      (Conjunct.bound? resolver .start (cs ++ own)).getD
        (Variables.nameAfter 1) := by
    rw [hPipeline, Conjunct.bound?_append, Option.getD_or,
      ← hParts.start]
    rfl
  have hStop : e.pipeline.stop? =
      Conjunct.bound? resolver .stop (cs ++ own) := by
    rw [hPipeline, Conjunct.bound?_append, ← hParts.stop]
    rfl
  have hFilters : e.pipeline.filters = d.pipeline.filters := by
    rw [hPipeline]
    rfl
  have hBucket : e.pipeline.bucket = Variables.nameAfter 0 := by
    rw [hPipeline]
    exact hParts.bucket
  cases hOwn : Conjunct.conditions resolver own with
  | nil =>
      refine ⟨hBucket, hStart, hStop, ?_, ?_⟩
      · rw [Conjunct.conditions_append, hOwn, List.append_nil,
          ← hParts.filtered, ← hFilters]
        rfl
      · rw [Conjunct.conditions_append, hOwn, List.append_nil,
          ← hParts.joined, ← hFilters]
        rfl
  | cons first others =>
      have hAdded : (e.addConditions
          (first :: others)).pipeline.filters =
            d.pipeline.filters
              ++ [" and ".intercalate (first :: others)] := by
        rw [← hFilters]
        rfl
      refine ⟨hBucket, hStart, hStop, ?_, ?_⟩
      · rw [hAdded, Conjunct.conditions_append, hOwn]
        simp
      · rw [hAdded, Conjunct.conditions_append, hOwn]
        exact join_concat_join hParts.filtered hParts.joined
          (List.cons_ne_nil _ _)

end Draft

namespace Drafting

open Draft TypedFlux.Expr

variable {resolver : Resolver}
variable {constants : List Constant}
variable {cs : List Conjunct}
variable {d d' : Draft}

/- A filter parts the conjuncts of its predicate. -/
theorem filter_parts
    {predicate : Expr}
    {a : Unit}
    (hNumbers : d.scope.Numbers constants)
    (hParts : d.Parts resolver cs)
    (hFilter : filter resolver predicate d = (.ok a, d')) :
    d'.Parts resolver (cs ++ Conjunct.ofExprs resolver
      constants.length predicate.conjuncts) := by
  rcases filter_eq_ok.mp hFilter with
    ⟨parts, s, conditions, e, hVisits, hRoutes, rfl⟩
  rcases hRoutes.parts_eq hNumbers hVisits with
    ⟨rfl, hPipeline⟩
  exact hParts.addConditions hPipeline

/- A key to sort by is no conjunct. -/
theorem orderBy_parts
    {key : SortKey}
    {a : Unit}
    (hParts : d.Parts resolver cs)
    (hOrder : orderBy resolver key d = (.ok a, d')) :
    d'.Parts resolver cs := by
  rcases orderBy_eq_ok.mp hOrder with
    ⟨role, column, s, _, rfl⟩
  exact hParts.of_pipeline rfl rfl rfl rfl

/- So every clause parts what it has. -/
theorem clause_parts
    {c : BodyClause}
    (hNumbers : d.scope.Numbers constants)
    (hParts : d.Parts resolver cs)
    (hClause : clause resolver c d = (.ok PUnit.unit, d')) :
    d'.Parts resolver (cs ++ Conjunct.ofExprs resolver
      constants.length c.conjuncts) := by
  cases c with
  | filter predicate =>
      exact filter_parts hNumbers hParts hClause
  | order keys =>
      have hKeys := Step.forM_keeps_ok
        (P := fun d => d.Parts resolver cs)
        (fun _ _ _ hParts hOrder => orderBy_parts hParts hOrder)
        hParts hClause
      rw [BodyClause.conjuncts, Conjunct.ofExprs,
        List.append_nil]
      exact hKeys

/- Every clause puts its conjuncts behind those before. -/
theorem clauses_parts
    {body : List BodyClause}
    (hNumbers : d.scope.Numbers constants)
    (hParts : d.Parts resolver cs)
    (hBody : body.forM (clause resolver) d =
      (.ok PUnit.unit, d')) :
    d'.Parts resolver (cs ++ Conjunct.ofClauses resolver
      constants.length body) := by
  induction body generalizing d constants cs with
  | nil =>
      cases Step.forM_nil_eq_ok.mp hBody
      rw [Conjunct.ofClauses, List.append_nil]
      exact hParts
  | cons c body ih =>
      rcases Step.forM_cons_eq_ok.mp hBody with
        ⟨u, hFirst, hRest⟩
      have hAll := ih (clause_numbers hNumbers hFirst)
        (clause_parts hNumbers hParts hFirst) hRest
      rw [List.length_append, List.append_assoc] at hAll
      exact hAll

/- Operators come behind the filter. -/
theorem operator_parts
    {op : ResultOperator}
    (hParts : d.Parts resolver cs)
    (hOperator : operator op d = (.ok PUnit.unit, d')) :
    d'.Parts resolver cs := by
  cases operates_iff.mp hOperator with
  | take | skip | takeLast | any | count | longCount =>
      exact hParts.of_pipeline rfl rfl rfl rfl

end Drafting

end TypedFlux

------------------------------------------------------------
-- The Pipeline of a Query
------------------------------------------------------------

namespace TypedFlux

namespace Pipeline

/- The stages behind the filter. -/
def closingStages (p : Pipeline) : List String :=
  p.sorts.map sortStage
    ++ limitStages p.limit? p.offset?
    ++ tailStages p.tail?
    ++ reductionStages p.reduction?

/- The range, with its stop behind a comma. -/
theorem stage_range
    (start : String)
    (stop? : Option String) :
    stage "range"
        (argument? "start" (some start)
          ++ argument? "stop" stop?) =
      "range(start: " ++ start
        ++ (stop?.map (", stop: " ++ ·)).getD "" ++ ")" := by
  apply String.toList_injective
  cases stop? with
  | none => simp [stage, argument?]
  | some stop =>
      simp [stage, argument?, String.intercalate_cons_cons]

/- The filter, if there is any condition. -/
theorem filterStages_eq_ite
    (conditions : List String) :
    filterStages conditions =
      if conditions = [] then []
      else
        ["filter(fn: (r) => " ++ " and ".intercalate conditions
          ++ ")"] := by
  cases conditions with
  | nil => rfl
  | cons first others => rfl

/- The filter shows its conditions only when they are joined. -/
theorem filterStages_of_joined
    {filters conditions : List String}
    (hEmpty : filters = [] ↔ conditions = [])
    (hJoined : " and ".intercalate filters =
      " and ".intercalate conditions) :
    filterStages filters = filterStages conditions := by
  rw [filterStages_eq_ite, filterStages_eq_ite, hJoined]
  simp only [hEmpty]

/- What a text begins with is told by its first letter. -/
theorem avoids_append
    {p : Char → Bool}
    {name : String}
    {first : Char}
    {others : List Char}
    (hName : name.toList = first :: others)
    (hFirst : p first = false)
    (rest : String) :
    Lexeme.Avoids p (name ++ rest).toList := by
  rw [String.toList_append, hName, List.cons_append,
    Lexeme.avoids_cons, hFirst]

/- A stage begins with its function. -/
theorem avoids_stage
    {p : Char → Bool}
    {name : String}
    {first : Char}
    {others : List Char}
    (hName : name.toList = first :: others)
    (hFirst : p first = false)
    (arguments : List String) :
    Lexeme.Avoids p (stage name arguments).toList := by
  rw [stage, String.append_assoc, String.append_assoc]
  exact avoids_append hName hFirst _

theorem exists_of_mem_limitStages
    {limit? offset? : Option String}
    {text : String}
    (hMem : text ∈ limitStages limit? offset?) :
    ∃ arguments, text = stage "limit" arguments := by
  cases limit? with
  | some count => exact ⟨_, List.mem_singleton.mp hMem⟩
  | none =>
      cases offset? with
      | some offset => exact ⟨_, List.mem_singleton.mp hMem⟩
      | none => exact absurd hMem List.not_mem_nil

theorem exists_of_mem_tailStages
    {tail? : Option String}
    {text : String}
    (hMem : text ∈ tailStages tail?) :
    ∃ arguments, text = stage "tail" arguments := by
  cases tail? with
  | some count => exact ⟨_, List.mem_singleton.mp hMem⟩
  | none => exact absurd hMem List.not_mem_nil

/- No stage behind the filter begins as a filter or a range. -/
theorem avoids_of_mem_closingStages
    {p : Pipeline}
    {text : String}
    (hMem : text ∈ p.closingStages) :
    Lexeme.Avoids (fun c => c == 'f' || c == 'r')
      text.toList := by
  simp only [closingStages, List.mem_append] at hMem
  rcases hMem with ((hSort | hLimit) | hTail) | hCount
  · rcases List.mem_map.mp hSort with ⟨column, _, rfl⟩
    change Lexeme.Avoids _ ("sort(columns: [" ++ _ ++ "], desc: "
      ++ _ ++ ")").toList
    rw [String.append_assoc, String.append_assoc,
      String.append_assoc]
    exact avoids_append rfl rfl _
  · rcases exists_of_mem_limitStages hLimit with ⟨arguments, rfl⟩
    exact avoids_stage rfl rfl arguments
  · rcases exists_of_mem_tailStages hTail with ⟨arguments, rfl⟩
    exact avoids_stage rfl rfl arguments
  · rcases hReduction : p.reduction? with _ | ⟨⟨⟩⟩
    · rw [hReduction] at hCount
      exact absurd hCount List.not_mem_nil
    · rw [hReduction] at hCount
      simp only [reductionStages, List.mem_cons,
        List.not_mem_nil, or_false] at hCount
      rcases hCount with rfl | rfl | rfl
      all_goals
        rw [String.append_assoc]
        exact avoids_append rfl rfl _

/- Both stages are told apart from others by their letters. -/
theorem not_begins_of_avoids
    {text : String}
    (hAvoids : Lexeme.Avoids (fun c => c == 'f' || c == 'r')
      text.toList) :
    ¬ "filter(".toList <+: text.toList ∧
      ¬ "range(".toList <+: text.toList :=
  ⟨Lexeme.not_prefix_of_avoids rfl rfl hAvoids,
    Lexeme.not_prefix_of_avoids rfl rfl hAvoids⟩

end Pipeline

namespace Draft

/- The draft of a query parts its conjuncts. -/
theorem ofQuery_parts
    {bucket : String}
    {resolver : Resolver}
    {q : Query}
    {d : Draft}
    (hDraft : Draft.ofQuery bucket resolver q = .ok d) :
    d.Parts resolver (q.conjuncts resolver) := by
  rcases ofQuery_eq_ok.mp hDraft with ⟨e, hBody, hOperators⟩
  have hClauses := Drafting.clauses_parts (new_numbers bucket)
    (new_parts bucket) hBody
  exact Step.forM_keeps_ok
    (P := fun d => d.Parts resolver (q.conjuncts resolver))
    (fun _ _ _ hParts hOperator =>
      Drafting.operator_parts hParts hOperator)
    hClauses hOperators

/-
  The conjuncts of a query are parted: those that bound the
  range give its last bounds, and the filter joins all others.
-/
theorem query_script
    (bucket : String)
    (resolver : Resolver)
    (q : Query)
    (d : Draft)
    (hDraft : Draft.ofQuery bucket resolver q = .ok d) :
    (q.conjuncts resolver).map Conjunct.expr =
        q.predicates.flatMap Expr.conjuncts ∧
      (∀ c ∈ q.conjuncts resolver,
        c.expr.constants resolver false <+:
          (q.constants bucket resolver).drop c.before) ∧
      d.script.query = " |> ".intercalate
        (["from(bucket: p1)",
            "range(start: "
              ++ (Conjunct.bound? resolver .start
                (q.conjuncts resolver)).getD "p2"
              ++ ((Conjunct.bound? resolver .stop
                (q.conjuncts resolver)).map
                  (", stop: " ++ ·)).getD ""
              ++ ")",
            "pivot(rowKey:[\"_time\"], columnKey: [\"_field\"], "
              ++ "valueColumn: \"_value\")"]
          ++ (if Conjunct.conditions resolver
                (q.conjuncts resolver) = [] then []
            else
              ["filter(fn: (r) => "
                ++ " and ".intercalate (Conjunct.conditions
                  resolver (q.conjuncts resolver))
                ++ ")"])
          ++ d.pipeline.closingStages) ∧
      ∀ stage ∈ d.pipeline.closingStages,
        ¬ "filter(".toList <+: stage.toList ∧
          ¬ "range(".toList <+: stage.toList := by
  refine ⟨q.expr_conjuncts resolver,
    q.constants_conjuncts bucket resolver, ?_,
    fun _ hMem => Pipeline.not_begins_of_avoids
      (Pipeline.avoids_of_mem_closingStages hMem)⟩
  have hParts := ofQuery_parts hDraft
  change " |> ".intercalate d.pipeline.stages = _
  unfold Pipeline.stages
  rw [hParts.bucket, Pipeline.stage_range, hParts.start,
    hParts.stop, Pipeline.filterStages_of_joined hParts.filtered
      hParts.joined, Pipeline.filterStages_eq_ite]
  simp only [Pipeline.closingStages, List.append_assoc]
  rfl

/-
  Comparisons of the time that bound the range on either side,
  and others that stay in the filter: below a disjunction,
  against a column, and inside another comparison.
-/
def windowQuery : Query where
  entity := "device"
  body := [
    .filter (.binary .and
      (.binary .equal (.member "at") (.constant (.int 1)))
      (.binary .andAlso
        (.binary .orElse
          (.binary .lessThan (.member "at") (.constant (.int 2)))
          (.binary .equal (.member "site")
            (.constant (.string "x"))))
        (.binary .equal
          (.binary .lessThan (.member "at") (.constant (.int 3)))
          (.constant (.bool true))))),
    .order [⟨.member "at", .descending⟩],
    .filter (.unary .convert (.binary .andAlso
      (.binary .greaterThan (.member "at") (.member "at"))
      (.unary .convert (.binary .lessThan (.constant (.int 4))
        (.unary .convert (.member "at"))))))]
  operators := [.take (.constant (.int 5))]

/-
  The last bounds on both sides, and the conditions of two
  clauses in one filter.
-/
theorem query_script_windowQuery :
    ∃ d, Draft.ofQuery "b" deviceResolver windowQuery = .ok d ∧
      d.script.query =
        "from(bucket: p1) |> range(start: p9, stop: p3) |> "
          ++ "pivot(rowKey:[\"_time\"], columnKey: [\"_field\"], "
          ++ "valueColumn: \"_value\")"
          ++ " |> filter(fn: (r) => ((r[\"_time\"] < p4) or "
          ++ "(r[\"site\"] == p5)) and "
          ++ "((r[\"_time\"] < p6) == p7) and "
          ++ "(r[\"_time\"] > r[\"_time\"]))"
          ++ " |> sort(columns: [\"_time\"], desc: p8)"
          ++ " |> limit(n: p10)" := by
  rcases (⟨_, rfl, rfl⟩ : ∃ d, Draft.ofQuery "b" deviceResolver
    windowQuery = .ok d ∧ d.pipeline.closingStages =
      ["sort(columns: [\"_time\"], desc: p8)",
        "limit(n: p10)"]) with ⟨d, hDraft, hClosing⟩
  refine ⟨d, hDraft, ?_⟩
  have hQuery := (query_script "b" deviceResolver windowQuery d
    hDraft).2.2.1
  rw [hClosing] at hQuery
  exact hQuery.trans (by decide +kernel)

end Draft

end TypedFlux
