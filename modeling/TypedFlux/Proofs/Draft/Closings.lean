import TypedFlux.Proofs.Draft.Growth
import TypedFlux.Proofs.Draft.Windows

/-
  The end of a script, from the operators of a query.

  Operators fill the places of the limit, its offset and the
  tail.  The last operator of a kind leaves its number there,
  under the name that this very operator gave it.  One that
  asks whether there are rows leaves nothing anywhere.

  Key definitions include:
    * `Query.LastNamed`
    * `Draft.FilledBy`
    * `Stage.closing`

  Key theorems include:
    * `Draft.FilledBy.lastNamed`
    * `Plan.text_stages`
    * `Draft.stages_closing`
    * `Query.translate_any`
    * `Query.translate_closing`
-/

------------------------------------------------------------
-- The Last Operator of a Kind
------------------------------------------------------------

namespace TypedFlux

/-
  The name that operators of a kind leave.  There is none
  without such an operator.  Otherwise it is the name of the
  variable to which the last of them binds its number: the first
  variable behind those that the query has up to it.
-/
inductive Query.LastNamed
    (bucket : String)
    (resolver : Resolver)
    (q : Query)
    (d : Draft)
    (p : ResultOperator → Bool) : Option String → Prop where
  | none
      (hNone : ∀ op ∈ q.operators, p op = false) :
      LastNamed bucket resolver q d p none
  | some
      {before after : List ResultOperator}
      {op : ResultOperator}
      {n : Expr}
      {value : Value}
      {x : String}
      {u : Draft}
      (hSplit : q.operators = before ++ op :: after)
      (hKind : p op = true)
      (hLater : ∀ later ∈ after, p later = false)
      (hCount : op.count? = some n)
      (hConstant : Drafting.constant? n = some value)
      (hBefore : Draft.ofQuery bucket resolver
        { q with operators := before } = .ok u)
      (hBound : d.scope.options[u.scope.options.length]? =
        some ⟨x, value, false⟩) :
      LastNamed bucket resolver q d p (some x)

namespace ResultOperator

/- Operators are of another kind, or one is the last of it. -/
theorem last_cases
    (p : ResultOperator → Bool)
    (ops : List ResultOperator) :
    (∀ op ∈ ops, p op = false) ∨
    ∃ before op after,
      ops = before ++ op :: after ∧ p op = true ∧
      ∀ later ∈ after, p later = false := by
  induction ops with
  | nil => exact .inl (by simp)
  | cons earliest ops ih =>
      rcases ih with hNone | ⟨before, op, after, rfl, hLast⟩
      · cases hKind : p earliest with
        | true =>
            exact .inr ⟨[], earliest, ops, rfl, hKind, hNone⟩
        | false =>
            left
            rw [List.forall_mem_cons]
            exact ⟨hKind, hNone⟩
      · exact .inr ⟨earliest :: before, op, after, rfl, hLast⟩

end ResultOperator

end TypedFlux

------------------------------------------------------------
-- Places in the Pipeline
------------------------------------------------------------

namespace TypedFlux

namespace Draft

open TypedFlux.Drafting

/-
  A place in the pipeline that operators of a kind fill with the
  names of their numbers.  Nothing else fills it.
-/
structure FilledBy
    (p : ResultOperator → Bool)
    (place : Pipeline → Option String) : Prop where
  empty : ∀ bucket, place (Draft.new bucket).pipeline = none
  clause : ∀ {resolver c d d'},
    clause resolver c d = (.ok (), d') →
      place d'.pipeline = place d.pipeline
  keeps : ∀ {op d d'}, p op = false → Operates op d d' →
    place d'.pipeline = place d.pipeline
  fills : ∀ {op d d'}, p op = true → Operates op d d' →
    place d'.pipeline = some d.scope.options.nextName ∧
    ∃ n value,
      op.count? = some n ∧ constant? n = some value ∧
      d'.scope = d.scope.bind value

variable {p : ResultOperator → Bool}
variable {place : Pipeline → Option String}
variable {d d' : Draft}

/- Operators of another kind leave a place as it is. -/
theorem FilledBy.operators_keep
    {ops : List ResultOperator}
    (hPlace : FilledBy p place)
    (hNone : ∀ op ∈ ops, p op = false)
    (hRun : ops.forM operator d = (.ok (), d')) :
    place d'.pipeline = place d.pipeline := by
  induction ops generalizing d with
  | nil =>
      cases hRun
      rfl
  | cons op ops ih =>
      rw [List.forall_mem_cons] at hNone
      rcases Step.forM_cons_eq_ok.mp hRun with
        ⟨u, hFirst, hRest⟩
      rw [ih hNone.2 hRest,
        hPlace.keeps hNone.1 (operates_iff.mp hFirst)]

/- An operator adds at most a variable at the end. -/
theorem Operates.keeps_options
    {op : ResultOperator}
    (hOperates : Operates op d d') :
    d.scope.options <+: d'.scope.options := by
  cases hOperates with
  | take | skip | takeLast => exact List.prefix_append _ _
  | any | count | longCount => exact List.prefix_rfl

theorem options_prefix_of_forM
    {ops : List ResultOperator}
    (hRun : ops.forM operator d = (.ok (), d')) :
    d.scope.options <+: d'.scope.options :=
  Step.forM_keeps_ok
    (P := fun u => d.scope.options <+: u.scope.options)
    (fun _ _ _ hPrefix hStep =>
      hPrefix.trans (operates_iff.mp hStep).keeps_options)
    List.prefix_rfl hRun

/- A place holds the name that the last operator gave. -/
theorem FilledBy.lastNamed
    {bucket : String}
    {resolver : Resolver}
    {q : Query}
    (hPlace : FilledBy p place)
    (hDraft : Draft.ofQuery bucket resolver q = .ok d) :
    q.LastNamed bucket resolver d p (place d.pipeline) := by
  rcases ofQuery_eq_ok.mp hDraft with ⟨e, hBody, hOperators⟩
  rcases ResultOperator.last_cases p q.operators with
    hNone | ⟨before, op, after, hSplit, hKind, hLater⟩
  · have hEmpty : place e.pipeline = none :=
      Step.forM_keeps_ok
        (P := fun u => place u.pipeline = none)
        (fun _ _ _ hEmpty hClause =>
          (hPlace.clause hClause).trans hEmpty)
        (hPlace.empty bucket) hBody
    rw [hPlace.operators_keep hNone hOperators, hEmpty]
    exact .none hNone
  · rw [hSplit, List.forM_eq_forM, List.forM_append]
      at hOperators
    rcases Step.bind_eq_ok.mp hOperators with
      ⟨_, u, hBefore, hRest⟩
    rcases Step.forM_cons_eq_ok.mp hRest with
      ⟨v, hOperator, hAfter⟩
    rcases hPlace.fills hKind (operates_iff.mp hOperator) with
      ⟨hFilled, n, value, hCount, hConstant, hScope⟩
    have hPrefix := options_prefix_of_forM hAfter
    rw [hScope] at hPrefix
    rw [hPlace.operators_keep hLater hAfter, hFilled]
    refine .some hSplit hKind hLater hCount hConstant
      (ofQuery_eq_ok.mpr ⟨e, hBody, hBefore⟩) ?_
    -- the variable stands where those before it end
    rcases hPrefix with ⟨more, hOptions⟩
    rw [← hOptions]
    simp [Scope.bind, Variables.add]

------------------------------------------------------------
-- Limits, Offsets and Tails
------------------------------------------------------------

/- A clause leaves the places of operators as they are. -/
theorem clause_closing
    {resolver : Resolver}
    {c : BodyClause}
    (hClause : clause resolver c d = (.ok (), d')) :
    d'.pipeline.limit? = d.pipeline.limit? ∧
    d'.pipeline.offset? = d.pipeline.offset? ∧
    d'.pipeline.tail? = d.pipeline.tail? := by
  cases c with
  | filter predicate =>
      rcases filter_eq_ok.mp hClause with
        ⟨parts, s, conditions, e, _, hRoutes, rfl⟩
      rcases hRoutes.pipeline_eq with ⟨_, _, hRange⟩
      rcases e.pipeline_addConditions conditions with
        ⟨filters, hAdded⟩
      rw [hAdded, hRange]
      exact ⟨rfl, rfl, rfl⟩
  | order keys =>
      refine Step.forM_keeps_ok
        (P := fun u =>
          u.pipeline.limit? = d.pipeline.limit? ∧
          u.pipeline.offset? = d.pipeline.offset? ∧
          u.pipeline.tail? = d.pipeline.tail?)
        ?_ ⟨rfl, rfl, rfl⟩ hClause
      intro key u v hSame hOrder
      rcases orderBy_eq_ok.mp hOrder with ⟨_, _, _, _, rfl⟩
      exact hSame

/- Each slot has operators of its own. -/
theorem filledBy_limit :
    FilledBy ResultOperator.isTake Pipeline.limit? where
  empty := fun _ => rfl
  clause := fun hClause => (clause_closing hClause).1
  keeps := by
    intro op d d' hOther hOperates
    cases hOperates with
    | take => cases hOther
    | skip | takeLast | any | count | longCount => rfl
  fills := by
    intro op d d' hKind hOperates
    cases hOperates with
    | take _ hConstant _ =>
        exact ⟨rfl, _, _, rfl, hConstant, rfl⟩
    | skip | takeLast | any | count | longCount => cases hKind

theorem filledBy_offset :
    FilledBy ResultOperator.isSkip Pipeline.offset? where
  empty := fun _ => rfl
  clause := fun hClause => (clause_closing hClause).2.1
  keeps := by
    intro op d d' hOther hOperates
    cases hOperates with
    | skip => cases hOther
    | take | takeLast | any | count | longCount => rfl
  fills := by
    intro op d d' hKind hOperates
    cases hOperates with
    | skip _ hConstant _ =>
        exact ⟨rfl, _, _, rfl, hConstant, rfl⟩
    | take | takeLast | any | count | longCount => cases hKind

theorem filledBy_tail :
    FilledBy ResultOperator.isTail Pipeline.tail? where
  empty := fun _ => rfl
  clause := fun hClause => (clause_closing hClause).2.2
  keeps := by
    intro op d d' hOther hOperates
    cases hOperates with
    | takeLast => cases hOther
    | take | skip | any | count | longCount => rfl
  fills := by
    intro op d d' hKind hOperates
    cases hOperates with
    | takeLast hConstant _ =>
        exact ⟨rfl, _, _, rfl, hConstant, rfl⟩
    | take | skip | any | count | longCount => cases hKind

end Draft

end TypedFlux

------------------------------------------------------------
-- Stages of Operators
------------------------------------------------------------

namespace TypedFlux

/- The function that a stage calls. -/
def Scan.function (stage : String) : String :=
  String.ofList (stage.toList.takeWhile (· != '('))

theorem Stage.function_call
    {name : String}
    (hName : name.toList.all (· != '(') = true)
    (arguments : List (String × String)) :
    Scan.function (call name arguments) = name := by
  have hText : (call name arguments).toList =
      name.toList ++ '(' :: ((", ".intercalate
        (arguments.map fun a => a.1 ++ ": " ++ a.2)).toList
        ++ [')']) := by
    simp [call]
  unfold Scan.function
  rw [hText, List.takeWhile_append_of_pos
    (List.all_eq_true.mp hName)]
  simp

/-
  The stages at the end of a script, from the names of the
  numbers that they have.  A limit without a number has the
  largest one.
-/
def Stage.closing
    (limited : Bool)
    (limit? offset? tail? : Option String)
    (counted : Bool) : List String :=
  (if limited then
      [call "limit"
        (("n", limit?.getD "9223372036854775807")
          :: (offset?.map fun x => ("offset", x)).toList)]
    else [])
    ++ (tail?.map fun x => call "tail" [("n", x)]).toList
    ++ (if counted then
        ["stateCount(fn: (r) => true, "
            ++ "column: \"linq_result_column\")",
          "last(column: \"linq_result_column\")",
          "keep(columns: [\"linq_result_column\"])"]
      else [])

/- The function of a stage. -/
def Stage.functionName : Stage → String
  | .source _ => "from"
  | .range _ _ => "range"
  | .pivot => "pivot"
  | .filter _ => "filter"
  | .sort _ _ => "sort"
  | .limit _ _ => "limit"
  | .tail _ => "tail"
  | .runningCount => "stateCount"
  | .lastRow => "last"
  | .keepCount => "keep"

/- The function of a stage is found in its text. -/
theorem Stage.function_text
    (stage : Stage) :
    Scan.function stage.text = stage.functionName := by
  cases stage with
  | pivot => decide
  | source | range | filter | sort | limit | tail
  | runningCount | lastRow | keepCount =>
      exact function_call rfl _

namespace Plan

open Variables

/- The stages of a plan in front of those of operators. -/
def front (p : Plan) : List Stage :=
  [Stage.source p.bucket, Stage.range p.start p.stop?,
      Stage.pivot]
    ++ filterStages p.conditions
    ++ p.sorts.map fun s => Stage.sort s.1 s.2

/- The stages at the front close nothing. -/
theorem function_front
    (p : Plan) :
    ∀ s ∈ p.front.map Stage.text, Scan.function s ∈
      ["from", "range", "pivot", "filter", "sort"] := by
  intro s hMem
  rcases List.mem_map.mp hMem with ⟨stage, hStage, rfl⟩
  rw [Stage.function_text]
  rcases List.mem_append.mp hStage with hStage | hSort
  · rcases List.mem_append.mp hStage with hOpening | hFilter
    · simp only [List.mem_cons, List.not_mem_nil, or_false]
        at hOpening
      rcases hOpening with rfl | rfl | rfl
      · simp [Stage.functionName]
      · simp [Stage.functionName]
      · simp [Stage.functionName]
    · cases hConditions : p.conditions with
      | nil =>
          rw [hConditions] at hFilter
          exact absurd hFilter List.not_mem_nil
      | cons c cs =>
          rw [hConditions] at hFilter
          rw [List.mem_singleton.mp hFilter]
          simp [Stage.functionName]
  · rcases List.mem_map.mp hSort with ⟨sort, _, rfl⟩
    simp [Stage.functionName]

/- Behind them a plan has the stages of its numbers. -/
theorem text_stages
    (p : Plan) :
    p.stages.map Stage.text =
      p.front.map Stage.text ++
        Stage.closing (p.limit?.isSome || p.offset?.isSome)
          (p.limit?.map nameAfter) (p.offset?.map nameAfter)
          (p.tail?.map nameAfter) p.reduction?.isSome := by
  have hSplit : p.stages =
      p.front ++ (limitStages p.limit? p.offset?
        ++ (p.tail?.map Stage.tail).toList
        ++ countStages p.reduction?) := by
    simp only [stages, front, List.append_assoc]
  rw [hSplit, List.map_append]
  congr 1
  cases p.limit? <;> cases p.offset? <;> cases p.tail? <;>
    rcases p.reduction? with _ | ⟨⟨⟩⟩ <;> rfl

end Plan

/- The stages of a script, with those of operators at the end. -/
theorem Draft.stages_closing
    {bucket : String}
    {resolver : Resolver}
    {q : Query}
    {d : Draft}
    (hDraft : Draft.ofQuery bucket resolver q = .ok d) :
    ∃ front,
      Scan.stages d.script.query =
        front ++ Stage.closing (q.operators.any (·.isLimit))
          d.pipeline.limit? d.pipeline.offset? d.pipeline.tail?
          (q.operators.any (·.isCount)) ∧
      ∀ s ∈ front, Scan.function s ∈
        ["from", "range", "pivot", "filter", "sort"] := by
  rcases ofQuery_follows hDraft with ⟨plan, hPlan, hOutline⟩
  refine ⟨plan.front.map Stage.text, ?_, plan.function_front⟩
  have hLimited : (plan.limit?.isSome || plan.offset?.isSome) =
      q.operators.any (·.isLimit) :=
    congrArg Outline.limited hOutline
  have hCounted : plan.reduction?.isSome =
      q.operators.any (·.isCount) :=
    congrArg Outline.counted hOutline
  simp only [script, hPlan, plan.stages_text,
    plan.text_stages, hLimited, hCounted]
  rfl

end TypedFlux

------------------------------------------------------------
-- Translations
------------------------------------------------------------

namespace TypedFlux

namespace Query

open ResultOperator

/- Rows are counted if any operator asks for it. -/
theorem reduction?_eq
    (q : Query) :
    q.reduction? =
      if q.operators.any (·.isCount) then some .count
      else none := by
  rcases q with ⟨entity, body, ops⟩
  unfold reduction?
  change ops.foldl _ none =
    if ops.any isCount then some Reduction.count else none
  -- from any reduction, since each operator may replace it
  generalize (none : Option Reduction) = found
  induction ops generalizing found with
  | nil => rfl
  | cons op ops ih =>
      rw [List.foldl_cons, ih, List.any_cons]
      cases op <;> simp

/- The reduction of a draft is the one that is asked for. -/
theorem reduction?_of_draft
    {bucket : String}
    {resolver : Resolver}
    {q : Query}
    {d : Draft}
    (hDraft : Draft.ofQuery bucket resolver q = .ok d) :
    d.pipeline.reduction? = q.reduction? := by
  rcases Draft.ofQuery_follows hDraft with
    ⟨plan, hPlan, hOutline⟩
  have hCounted : plan.reduction?.isSome =
      q.operators.any (·.isCount) :=
    congrArg Outline.counted hOutline
  rw [reduction?_eq, ← hCounted, hPlan]
  change plan.reduction? = _
  rcases plan.reduction? with _ | ⟨⟨⟩⟩
  · rfl
  · rfl

/- Whether there are rows may be asked anywhere. -/
theorem translate_any
    (bucket : String)
    (resolver : Resolver)
    (q : Query)
    (before after : List ResultOperator) :
    translate bucket resolver
        { q with operators := before ++ .any :: after } =
      translate bucket resolver
        { q with operators := before ++ after } := by
  have hRun : (before ++ .any :: after).forM Drafting.operator =
      (before ++ after).forM Drafting.operator := by
    induction before with
    | nil => rfl
    | cons op before ih =>
        exact congrArg
          (fun rest => Drafting.operator op >>= fun _ => rest) ih
  unfold translate Draft.ofQuery Draft.addQuery Drafting.query
  rw [hRun]

/-
  A script ends with what the last operators of each kind ask
  for, and its reduction is that of the query.  Rows are taken
  from the front before any are taken from the end.  To ask
  whether there are rows changes nothing.
-/
theorem translate_closing
    {bucket : String}
    {resolver : Resolver}
    {q : Query}
    {d : Draft}
    (hDraft : Draft.ofQuery bucket resolver q = .ok d) :
    (∃ front,
      Scan.stages d.script.query =
        front ++ Stage.closing (q.operators.any isLimit)
          d.pipeline.limit? d.pipeline.offset? d.pipeline.tail?
          (q.operators.any isCount) ∧
      ∀ s ∈ front, Scan.function s ∈
        ["from", "range", "pivot", "filter", "sort"]) ∧
    q.LastNamed bucket resolver d isTake d.pipeline.limit? ∧
    q.LastNamed bucket resolver d isSkip d.pipeline.offset? ∧
    q.LastNamed bucket resolver d isTail d.pipeline.tail? ∧
    q.operators.Pairwise (fun earlier later =>
      earlier.isTail = true → later.isLimit = false) ∧
    translate bucket resolver q =
      .ok (d.script, q.reduction?) ∧
    (q.reduction? = some .count ↔
      q.operators.any isCount = true) ∧
    ∀ before after,
      translate bucket resolver
          { q with operators := before ++ .any :: after } =
        translate bucket resolver
          { q with operators := before ++ after } := by
  refine ⟨Draft.stages_closing hDraft,
    Draft.filledBy_limit.lastNamed hDraft,
    Draft.filledBy_offset.lastNamed hDraft,
    Draft.filledBy_tail.lastNamed hDraft,
    Draft.pairwise_operators hDraft, ?_, ?_,
    translate_any bucket resolver q⟩
  · rw [translate, hDraft, ← reduction?_of_draft hDraft]
    rfl
  · rw [reduction?_eq]
    simp

/-
  Operators of every kind that is taken up, most of them more
  than once and two of them with the same number.
-/
def repeatingQuery : Query where
  entity := "device"
  body := [
    .filter (.binary .equal (.member "level")
      (.constant (.int 4)))]
  operators := [
    .any,
    .take (.constant (.int 4)),
    .skip (.constant (.int 1)),
    .longCount,
    .take (.unary .convert (.constant (.uint 4))),
    .takeLast (.constant (.int 3)),
    .any,
    .takeLast (.constant (.int 2)),
    .count]

/- Of the operators that repeat, the last one has the slot. -/
theorem translate_closing_repeatingQuery :
    ∃ d,
      Draft.ofQuery "b" deviceResolver repeatingQuery =
        .ok d ∧
      repeatingQuery.LastNamed "b" deviceResolver d isTake
        (some "p6") ∧
      repeatingQuery.LastNamed "b" deviceResolver d isSkip
        (some "p5") ∧
      repeatingQuery.LastNamed "b" deviceResolver d isTail
        (some "p8") ∧
      translate "b" deviceResolver repeatingQuery =
        .ok (d.script, some .count) := by
  rcases translate_closing
    (rfl : Draft.ofQuery "b" deviceResolver repeatingQuery =
      .ok _) with
    ⟨_, hTake, hSkip, hTail, _, hTranslate, _⟩
  exact ⟨_, rfl, hTake, hSkip, hTail, hTranslate⟩

end Query

end TypedFlux
