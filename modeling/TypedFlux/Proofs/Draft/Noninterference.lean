import TypedFlux.Proofs.Draft.Clauses

/-
  Constants do not reach the pipeline.

  The draft of a query is matched step by step by the draft of
  the query without its constants and directions.  Both have
  the same pipeline and the same names, whatever the names
  stand for.

  Key definitions include:
    * `Query.erase`
    * `Scope.SameShape`, `Draft.SameShape`

  Key theorems include:
    * `Expr.Visits.erase`
    * `Draft.Routes.sameShape`
    * `Draft.ofQuery_erase`
    * `Draft.script_eq_of_erase_eq`
-/

------------------------------------------------------------
-- Queries without Constants
------------------------------------------------------------

namespace TypedFlux

mutual

/- An expression with zero for every constant. -/
def Expr.erase : Expr → Expr
  | .constant _ => .constant (.int 0)
  | .member name => .member name
  | .index name key => .index name key
  | .binary op left right => .binary op left.erase right.erase
  | .unary op operand => .unary op operand.erase
  | .call receiver method args =>
      .call receiver.erase method (Expr.eraseAll args)
  | .parameter name => .parameter name
  | .conditional test ifTrue ifFalse =>
      .conditional test.erase ifTrue.erase ifFalse.erase

/- Expressions with zero for every constant. -/
def Expr.eraseAll : List Expr → List Expr
  | [] => []
  | e :: rest => e.erase :: Expr.eraseAll rest

end

/- A key without its constants and its direction. -/
def SortKey.erase (key : SortKey) : SortKey :=
  ⟨key.expr.erase, .ascending⟩

/- A clause without its constants and directions. -/
def BodyClause.erase : BodyClause → BodyClause
  | .filter predicate => .filter predicate.erase
  | .order keys => .order (keys.map SortKey.erase)

/- An operator without its number. -/
def ResultOperator.erase : ResultOperator → ResultOperator
  | .take n => .take n.erase
  | .skip n => .skip n.erase
  | .takeLast n => .takeLast n.erase
  | op => op

/- A query without its constants and directions. -/
def Query.erase (q : Query) : Query :=
  ⟨q.entity, q.body.map BodyClause.erase,
    q.operators.map ResultOperator.erase⟩

namespace Expr

theorem eraseAll_append
    (es fs : List Expr) :
    eraseAll (es ++ fs) = eraseAll es ++ eraseAll fs := by
  induction es with
  | nil => rfl
  | cons e es ih =>
      simp only [List.cons_append, eraseAll, ih]

theorem length_eraseAll
    (es : List Expr) :
    (eraseAll es).length = es.length := by
  induction es with
  | nil => rfl
  | cons e es ih => simp only [eraseAll, List.length_cons, ih]

/-
  A function is chosen by the number of arguments, not by what
  they are.
-/
theorem function?_eraseAll
    (method : String)
    (args : List Expr) :
    function? method (eraseAll args) =
      function? method args := by
  simp only [function?, length_eraseAll]

/- Conjuncts do not depend on constants. -/
theorem conjuncts_erase
    (e : Expr) :
    e.erase.conjuncts = eraseAll e.conjuncts := by
  induction e with
  | constant value => rfl
  | member name => rfl
  | index name key => rfl
  | binary op left right ihLeft ihRight =>
      simp only [erase, conjuncts]
      split
      · rw [eraseAll_append, ihLeft, ihRight]
      · rfl
  | unary op operand ih =>
      cases op with
      | convert => exact ih
      | not => rfl
      | negate => rfl
  | call receiver method args _ _ => rfl
  | parameter name => rfl
  | conditional test ifTrue ifFalse _ _ _ => rfl

/- A constant stays one when it is erased. -/
theorem constant?_erase
    {e : Expr}
    {value : Value}
    (hConstant : Drafting.constant? e = some value) :
    Drafting.constant? e.erase = some (.int 0) := by
  induction e with
  | constant _ => rfl
  | unary op operand ih =>
      cases op with
      | convert => exact ih hConstant
      | not => cases hConstant
      | negate => cases hConstant
  | member | index | binary | call | parameter
  | conditional => cases hConstant

end Expr

end TypedFlux

------------------------------------------------------------
-- Scopes of One Shape
------------------------------------------------------------

namespace TypedFlux

/- What a variable is apart from its value. -/
def Variable.shape (v : Variable) : String × Bool :=
  (v.name, v.isTag)

namespace Scope

/- Two scopes differ in the values of their names only. -/
structure SameShape (s t : Scope) : Prop where
  options : s.options.map Variable.shape =
    t.options.map Variable.shape
  strings : s.usesStrings = t.usesStrings

variable {s t : Scope}

/- Scopes of one shape give out the same names. -/
theorem SameShape.nextName_eq
    (hShape : SameShape s t) :
    s.options.nextName = t.options.nextName := by
  have hLength := congrArg List.length hShape.options
  simp only [List.length_map] at hLength
  simp only [Variables.nextName, hLength]

/- New names are the same, whatever they stand for. -/
theorem SameShape.bind
    (hShape : SameShape s t)
    (v w : Value) :
    SameShape (s.bind v) (t.bind w) where
  options := by
    simp only [Scope.bind, Variables.add, List.map_append,
      hShape.options, List.map_cons, List.map_nil,
      Variable.shape, hShape.nextName_eq]
  strings := hShape.strings

/- A tag is marked by name, whatever the value is. -/
theorem map_shape_markTag
    (vs : Variables)
    (name : String) :
    (vs.markTag name).map Variable.shape =
      (vs.map Variable.shape).map fun shape =>
        (shape.1, shape.2 || shape.1 == name) := by
  unfold Variables.markTag
  rw [List.map_map, List.map_map]
  apply List.map_congr_left
  intro v _
  by_cases hName : v.name = name
  · simp [Variable.shape, hName]
  · simp [Variable.shape, hName]

/- So marking keeps two scopes of one shape. -/
theorem SameShape.markAgainst
    (hShape : SameShape s t)
    (p q : Part) :
    SameShape (s.markAgainst p q) (t.markAgainst p q) := by
  unfold Scope.markAgainst
  split
  · constructor
    · simp only [Scope.markTag, map_shape_markTag,
        hShape.options]
    · exact hShape.strings
  · exact hShape

theorem SameShape.call
    (hShape : SameShape s t)
    (function : StringFunction) :
    SameShape (s.call function) (t.call function) := by
  unfold Scope.call
  split
  · exact ⟨hShape.options, rfl⟩
  · exact hShape

end Scope

namespace Expr

variable {resolver : Resolver}

/- A list is walked alike if each of its expressions is. -/
theorem VisitsAll.erase_of
    {es : List Expr}
    {ps : List Part}
    {s s' t : Scope}
    (hEach : ∀ e ∈ es, ∀ p s s' t, Scope.SameShape s s' →
      Visits resolver e s p t →
        ∃ t', Visits resolver e.erase s' p t' ∧
          Scope.SameShape t t')
    (hShape : Scope.SameShape s s')
    (hVisits : VisitsAll resolver es s ps t) :
    ∃ t', VisitsAll resolver (eraseAll es) s' ps t' ∧
      Scope.SameShape t t' := by
  induction es generalizing s s' ps with
  | nil =>
      cases hVisits with
      | nil => exact ⟨s', .nil s', hShape⟩
  | cons e es ih =>
      cases hVisits with
      | cons hFirst hOthers =>
          rcases hEach e List.mem_cons_self _ _ _ _ hShape
            hFirst with ⟨u', hFirst', hMiddle⟩
          rcases ih (fun e hMem =>
            hEach e (List.mem_cons_of_mem _ hMem)) hMiddle
            hOthers with ⟨t', hOthers', hEnd⟩
          exact ⟨t', .cons hFirst' hOthers', hEnd⟩

/- Without its constants, an expression has the same part. -/
theorem Visits.erase
    {e : Expr}
    {p : Part}
    {s s' t : Scope}
    (hShape : Scope.SameShape s s')
    (hVisits : Visits resolver e s p t) :
    ∃ t', Visits resolver e.erase s' p t' ∧
      Scope.SameShape t t' := by
  induction e generalizing s s' p t with
  | constant value =>
      cases hVisits with
      | constant =>
          rw [hShape.nextName_eq]
          exact ⟨_, .constant (.int 0) s', hShape.bind _ _⟩
  | member name =>
      cases hVisits with
      | member => exact ⟨s', .member name s', hShape⟩
  | index name key =>
      cases hVisits with
      | index => exact ⟨s', .index name key s', hShape⟩
  | binary op left right ihLeft ihRight =>
      cases hVisits with
      | comparison hComparison hLeft hRight =>
          rcases ihLeft hShape hLeft with ⟨u', hLeft', hMiddle⟩
          rcases ihRight hMiddle hRight with
            ⟨t', hRight', hEnd⟩
          exact ⟨_, .comparison hComparison hLeft' hRight',
            (hEnd.markAgainst _ _).markAgainst _ _⟩
      | connective hOther hToken hLeft hRight =>
          rcases ihLeft hShape hLeft with ⟨u', hLeft', hMiddle⟩
          rcases ihRight hMiddle hRight with
            ⟨t', hRight', hEnd⟩
          exact ⟨t', .connective hOther hToken hLeft' hRight',
            hEnd⟩
  | unary op operand ih =>
      cases hVisits with
      | convert hOperand =>
          rcases ih hShape hOperand with ⟨t', hOperand', hEnd⟩
          exact ⟨t', .convert hOperand', hEnd⟩
  | call receiver method args ihReceiver ihArgs =>
      cases hVisits with
      | call hFunction hReceiver hArgs =>
          rcases ihReceiver hShape hReceiver with
            ⟨u', hReceiver', hMiddle⟩
          rcases hArgs.erase_of
            (fun arg hMem p s s' t => ihArgs arg hMem)
            hMiddle with ⟨t', hArgs', hEnd⟩
          rw [← function?_eraseAll] at hFunction
          exact ⟨_, .call hFunction hReceiver' hArgs',
            hEnd.call _⟩
  | parameter name => cases hVisits
  | conditional test ifTrue ifFalse _ _ _ => cases hVisits

/- The same of any list, by what holds of every walk. -/
theorem VisitsAll.erase
    {es : List Expr}
    {ps : List Part}
    {s s' t : Scope}
    (hShape : Scope.SameShape s s')
    (hVisits : VisitsAll resolver es s ps t) :
    ∃ t', VisitsAll resolver (eraseAll es) s' ps t' ∧
      Scope.SameShape t t' :=
  hVisits.erase_of
    (fun _ _ _ _ _ _ hShape hEach => hEach.erase hShape) hShape

end Expr

end TypedFlux

------------------------------------------------------------
-- Drafts of One Shape
------------------------------------------------------------

namespace TypedFlux

namespace Draft

/- Two drafts differ in the values of their names only. -/
structure SameShape (d e : Draft) : Prop where
  scope : Scope.SameShape d.scope e.scope
  range : d.range = e.range
  tailTaken : d.tailTaken = e.tailTaken

variable {d e d' : Draft}

/-
  The pipelines are the same, so any change of them keeps the
  shape.
-/
theorem SameShape.mapPipeline
    (hShape : SameShape d e)
    (f : Pipeline → Pipeline) :
    SameShape (d.mapPipeline f) (e.mapPipeline f) where
  scope := hShape.scope
  range := by
    simp only [Draft.mapPipeline, hShape.range]
  tailTaken := hShape.tailTaken

theorem SameShape.withScope
    (hShape : SameShape d e)
    {s t : Scope}
    (hScope : Scope.SameShape s t) :
    SameShape { d with scope := s } { e with scope := t } :=
  ⟨hScope, hShape.range, hShape.tailTaken⟩

theorem SameShape.bind
    (hShape : SameShape d e)
    (v w : Value) :
    SameShape (d.bind v) (e.bind w) :=
  hShape.withScope (hShape.scope.bind v w)

/- Conditions name constants and do not hold them. -/
theorem SameShape.addConditions
    (hShape : SameShape d e)
    (conditions : List String) :
    SameShape (d.addConditions conditions)
      (e.addConditions conditions) := by
  cases conditions with
  | nil => exact hShape
  | cons first others =>
      exact hShape.mapPipeline
        (·.addFilter (" and ".intercalate (first :: others)))

/- Neither do the bounds of a range. -/
theorem SameShape.narrow
    (hShape : SameShape d e)
    (range : Range)
    (events : List Event) :
    SameShape (d.narrow range events) (e.narrow range events) :=
  ⟨⟨hShape.scope.options, hShape.scope.strings⟩, rfl,
    hShape.tailTaken⟩

/- Parts are routed alike in drafts of one shape. -/
theorem Routes.sameShape
    {parts : List Part}
    {conditions : List String}
    (hShape : SameShape d e)
    (hRoutes : Routes parts d conditions d') :
    ∃ e', Routes parts e conditions e' ∧ SameShape d' e' := by
  induction hRoutes generalizing e with
  | nil => exact ⟨e, .nil e, hShape⟩
  | bound hRange _ ih =>
      rw [hShape.range] at hRange
      rcases ih (hShape.narrow _ _) with ⟨e', hRest, hEnd⟩
      exact ⟨e', .bound hRange hRest, hEnd⟩
  | blank _ ih =>
      rcases ih hShape with ⟨e', hRest, hEnd⟩
      exact ⟨e', .blank hRest, hEnd⟩
  | condition hOwn hText _ ih =>
      rcases ih hShape with ⟨e', hRest, hEnd⟩
      exact ⟨e', .condition hOwn hText hRest, hEnd⟩

end Draft

namespace Drafting

open Draft

variable {resolver : Resolver}
variable {d e d' : Draft}

/- A filter does with erased constants what it did before. -/
theorem filter_erase
    {predicate : Expr}
    (hShape : SameShape d e)
    (hFilter : filter resolver predicate d = (.ok (), d')) :
    ∃ e', filter resolver predicate.erase e = (.ok (), e') ∧
      SameShape d' e' := by
  rcases filter_eq_ok.mp hFilter with
    ⟨parts, s, conditions, f, hVisits, hRoutes, rfl⟩
  rcases hVisits.erase hShape.scope with
    ⟨t, hVisits', hScope⟩
  rcases hRoutes.sameShape (hShape.withScope hScope) with
    ⟨f', hRoutes', hEnd⟩
  rw [← Expr.conjuncts_erase] at hVisits'
  refine ⟨_, filter_eq_ok.mpr ⟨parts, t, conditions, f',
    hVisits', hRoutes', rfl⟩, hEnd.addConditions conditions⟩

/- So does a key to sort by. -/
theorem orderBy_erase
    {key : SortKey}
    (hShape : SameShape d e)
    (hOrder : orderBy resolver key d = (.ok (), d')) :
    ∃ e', orderBy resolver key.erase e = (.ok (), e') ∧
      SameShape d' e' := by
  rcases orderBy_eq_ok.mp hOrder with
    ⟨role, column, s, hVisits, rfl⟩
  rcases hVisits.erase hShape.scope with
    ⟨t, hVisits', hScope⟩
  refine ⟨_, orderBy_eq_ok.mpr ⟨role, column, t, hVisits', rfl⟩,
    ?_⟩
  rw [hScope.nextName_eq]
  exact ((hShape.withScope hScope).bind _ _).mapPipeline _

/- One clause is matched by the clause without constants. -/
theorem clause_erase
    {c : BodyClause}
    (hShape : SameShape d e)
    (hClause : clause resolver c d = (.ok (), d')) :
    ∃ e', clause resolver c.erase e = (.ok (), e') ∧
      SameShape d' e' := by
  cases c with
  | filter predicate => exact filter_erase hShape hClause
  | order keys =>
      exact Step.forM_simulates
        (fun key d e d' hShape hOrder =>
          orderBy_erase hShape hOrder) hShape hClause

/- One operator is matched by the operator without its number. -/
theorem operator_erase
    {op : ResultOperator}
    (hShape : SameShape d e)
    (hOperator : operator op d = (.ok (), d')) :
    ∃ e', operator op.erase e = (.ok (), e') ∧
      SameShape d' e' := by
  have hTail := hShape.tailTaken
  have hName := hShape.scope.nextName_eq
  cases operates_iff.mp hOperator with
  | take hFree hConstant _ =>
      rw [hTail] at hFree
      rw [hName]
      exact ⟨_, operates_iff.mpr (.take hFree
          (Expr.constant?_erase hConstant) (by decide)),
        (hShape.bind _ _).mapPipeline _⟩
  | skip hFree hConstant _ =>
      rw [hTail] at hFree
      rw [hName]
      exact ⟨_, operates_iff.mpr (.skip hFree
          (Expr.constant?_erase hConstant) (by decide)),
        (hShape.bind _ _).mapPipeline _⟩
  | @takeLast _ value _ hConstant _ =>
      have hEnd := (hShape.bind value (.int 0)).mapPipeline
        (·.setTail e.scope.options.nextName)
      rw [hName]
      exact ⟨_, operates_iff.mpr (.takeLast
          (Expr.constant?_erase hConstant) (by decide)),
        ⟨hEnd.scope, hEnd.range, rfl⟩⟩
  | any => exact ⟨e, operates_iff.mpr (.any e), hShape⟩
  | count =>
      exact ⟨_, operates_iff.mpr (.count e),
        hShape.mapPipeline _⟩
  | longCount =>
      exact ⟨_, operates_iff.mpr (.longCount e),
        hShape.mapPipeline _⟩

end Drafting

------------------------------------------------------------
-- Whole Queries
------------------------------------------------------------

namespace Draft

/- Two buckets differ in their constants only. -/
theorem sameShape_new
    (bucket bucket' : String) :
    SameShape (Draft.new bucket) (Draft.new bucket') := by
  have hEmpty : Scope.SameShape {} {} := ⟨rfl, rfl⟩
  exact ⟨(hEmpty.bind (.string bucket) (.string bucket')).bind
    (.int 0) (.int 0), rfl, rfl⟩

/- A draft is matched by the draft without constants. -/
theorem ofQuery_erase
    {bucket : String}
    {resolver : Resolver}
    {q : Query}
    {d : Draft}
    (bucket' : String)
    (hDraft : Draft.ofQuery bucket resolver q = .ok d) :
    ∃ e, Draft.ofQuery bucket' resolver q.erase = .ok e ∧
      SameShape d e := by
  rcases ofQuery_eq_ok.mp hDraft with
    ⟨middle, hBody, hOperators⟩
  rcases Step.forM_simulates
    (fun c d e d' hShape hClause =>
      Drafting.clause_erase hShape hClause)
    (sameShape_new bucket bucket') hBody with
    ⟨middle', hBody', hMiddle⟩
  rcases Step.forM_simulates
    (fun op d e d' hShape hOperator =>
      Drafting.operator_erase hShape hOperator)
    hMiddle hOperators with ⟨e, hOperators', hEnd⟩
  exact ⟨e, ofQuery_eq_ok.mpr ⟨middle', hBody', hOperators'⟩,
    hEnd⟩

/- The text that gives a literal a name. -/
def declaration
    (name : String)
    (literal : Literal) : String :=
  "option " ++ name ++ " = " ++ literal.text

/- Every statement has a name and a literal. -/
theorem statements_eq_zipWith
    (vs : Variables) :
    vs.statements =
      List.zipWith declaration (vs.map (·.name))
        (vs.map (·.literal)) := by
  rw [List.zipWith_map, List.zipWith_self]
  rfl

/- The names are a part of the shape. -/
theorem SameShape.names_eq
    {d e : Draft}
    (hShape : SameShape d e) :
    d.scope.options.map (·.name) =
      e.scope.options.map (·.name) := by
  have hNames := congrArg (List.map Prod.fst)
    hShape.scope.options
  rw [List.map_map, List.map_map] at hNames
  exact hNames

/-
  Queries that differ in constants and directions only have the
  same pipeline and the same imports, and they name as many
  constants; only what the names stand for may differ.
-/
theorem script_eq_of_erase_eq
    (resolver : Resolver)
    (bucket bucket' : String)
    (q q' : Query)
    (d d' : Draft)
    (hErased : q.erase = q'.erase)
    (hFirst : Draft.ofQuery bucket resolver q = .ok d)
    (hSecond : Draft.ofQuery bucket' resolver q' = .ok d') :
    d.script.query = d'.script.query ∧
      d.script.imports = d'.script.imports ∧
      d.script.statements.length =
        d'.script.statements.length ∧
      ∃ (names : List String) (literals literals' : List Literal),
        literals.length = names.length ∧
        literals'.length = names.length ∧
        d.script.statements =
          List.zipWith declaration names literals ∧
        d'.script.statements =
          List.zipWith declaration names literals' := by
  -- both are compared with the draft of what they share
  rcases ofQuery_erase "" hFirst with ⟨e, hErase, hShape⟩
  rcases ofQuery_erase "" hSecond with ⟨e', hErase', hShape'⟩
  have hSame : e = e' := by
    rw [hErased, hErase'] at hErase
    exact (Except.ok.inj hErase).symm
  subst hSame
  have hNames : d.scope.options.map (·.name) =
      d'.scope.options.map (·.name) :=
    hShape.names_eq.trans hShape'.names_eq.symm
  have hLength := congrArg List.length hNames
  simp only [List.length_map] at hLength
  refine ⟨?_, ?_, ?_, d.scope.options.map (·.name),
    d.scope.options.map (·.literal),
    d'.scope.options.map (·.literal), ?_, ?_, ?_, ?_⟩
  · simp only [Draft.script, Draft.pipeline, hShape.range,
      hShape'.range]
  · simp only [Draft.script, hShape.scope.strings,
      hShape'.scope.strings]
  · simpa only [Draft.script, Variables.statements,
      List.length_map] using hLength
  · simp only [List.length_map]
  · simp only [List.length_map, hLength]
  · exact statements_eq_zipWith _
  · rw [hNames]
    exact statements_eq_zipWith _

/- A member for the time, and fields for everything else. -/
def clockResolver : Resolver where
  role := fun name => if name = "at" then .timestamp else .field
  column := id

/- A query by a bound, a text, a direction and a number. -/
def boundedQuery
    (bound text : Value)
    (direction : Direction)
    (number : Value) : Query where
  entity := "m"
  body := [
    .filter (.binary .andAlso
      (.binary .lessThan (.constant bound) (.member "at"))
      (.call (.member "v") "Contains" [.constant text])),
    .order [⟨.member "v", direction⟩]]
  operators := [.take (.constant number), .count]

/- A query whose text would end the pipeline. -/
def hostileQuery : Query :=
  boundedQuery (.int 5) (.string "\") |> drop()") .ascending
    (.int 3)

def harmlessQuery : Query :=
  boundedQuery (.string "x") (.bool true) .descending (.uint 7)

/- Constants that look like a script stay in their options. -/
theorem script_eq_hostileQuery :
    ∃ d d',
      hostileQuery.erase = harmlessQuery.erase ∧
      Draft.ofQuery "b" clockResolver hostileQuery = .ok d ∧
      Draft.ofQuery "c" clockResolver harmlessQuery = .ok d' ∧
      d.script.query = d'.script.query ∧
      d.script.imports = d'.script.imports ∧
      d.script.statements.length =
        d'.script.statements.length ∧
      ∃ (names : List String) (literals literals' : List Literal),
        literals.length = names.length ∧
        literals'.length = names.length ∧
        d.script.statements =
          List.zipWith declaration names literals ∧
        d'.script.statements =
          List.zipWith declaration names literals' := by
  have hErased : hostileQuery.erase = harmlessQuery.erase := rfl
  rcases (⟨_, rfl⟩ : ∃ d, Draft.ofQuery "b" clockResolver
    hostileQuery = .ok d) with ⟨d, hFirst⟩
  rcases (⟨_, rfl⟩ : ∃ d, Draft.ofQuery "c" clockResolver
    harmlessQuery = .ok d) with ⟨d', hSecond⟩
  exact ⟨d, d', hErased, hFirst, hSecond,
    script_eq_of_erase_eq clockResolver "b" "c" hostileQuery
      harmlessQuery d d' hErased hFirst hSecond⟩

end Draft

end TypedFlux
