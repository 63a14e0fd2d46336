import TypedFlux.Proofs.Draft.Closings
import TypedFlux.Proofs.Draft.Selection
import TypedFlux.Proofs.Flux.Callees

/-
  What a script imports.

  A script imports the package of string functions exactly if
  its pipeline calls one of them.  Both can be told from the
  predicates of the query: conditions call the functions of
  their methods in order, a conjunct that bounds the range has
  none, and no other stage calls a function of the package.

  Key definitions include:
    * `Expr.functions`, `Query.functions`
    * `Scan.inStrings`
    * `Stage.callees`

  Key theorems include:
    * `Expr.Expressible.calls_flux`
    * `Expr.Visits.usesStrings_eq`
    * `Plan.filter_calls`
    * `Draft.filter_calls_script`
    * `Draft.imports_iff_calls`
-/

------------------------------------------------------------
-- Functions of an Expression
------------------------------------------------------------

namespace TypedFlux

namespace Expr

mutual

/- The functions of all methods that are called, at any depth. -/
def functions : Expr → List StringFunction
  | .constant _ | .member _ | .index _ _ | .parameter _ => []
  | .binary _ left right => functions left ++ functions right
  | .unary _ operand => functions operand
  | .call receiver method args =>
      (StringFunction.ofMethod? method).toList
        ++ (functions receiver ++ functionsAll args)
  | .conditional test ifTrue ifFalse =>
      functions test ++ functions ifTrue ++ functions ifFalse

/- The functions in a list of expressions. -/
def functionsAll : List Expr → List StringFunction
  | [] => []
  | e :: rest => functions e ++ functionsAll rest

end

theorem functionsAll_eq
    (es : List Expr) :
    functionsAll es = es.flatMap functions := by
  induction es with
  | nil => simp [functionsAll]
  | cons e es ih => simp [functionsAll, ih]

/- Conjunctions at the top call nothing. -/
theorem functions_conjuncts
    (e : Expr) :
    e.conjuncts.flatMap functions = e.functions := by
  induction e with
  | binary op left right ihLeft ihRight =>
      rw [conjuncts]
      split
      · rw [List.flatMap_append, ihLeft, ihRight, functions]
      · exact List.flatMap_singleton functions _
  | unary op operand ih =>
      cases op with
      | convert =>
          rw [conjuncts, ih]
          simp [functions]
      | not => exact List.flatMap_singleton functions _
      | negate => exact List.flatMap_singleton functions _
  | constant | member | index | call | parameter
  | conditional => exact List.flatMap_singleton functions _

/- A member calls nothing. -/
theorem functions_of_member?
    {e : Expr}
    {name : String}
    (hMember : e.member? = some name) :
    e.functions = [] := by
  induction e with
  | member _ => simp [functions]
  | unary op operand ih =>
      cases op with
      | convert => simpa [functions] using ih hMember
      | not => cases hMember
      | negate => cases hMember
  | constant | index | binary | call | parameter
  | conditional => cases hMember

/- Neither does the time of a row. -/
theorem functions_of_isTime
    {resolver : Resolver}
    {e : Expr}
    (hTime : e.isTime resolver = true) :
    e.functions = [] := by
  rcases member?_of_isTime hTime with ⟨name, hMember⟩
  exact functions_of_member? hMember

/- Nor does a constant. -/
theorem functions_of_constant?
    {e : Expr}
    (hConstant : (Drafting.constant? e).isSome = true) :
    e.functions = [] := by
  induction e with
  | constant _ => simp [functions]
  | unary op operand ih =>
      cases op with
      | convert => simpa [functions] using ih hConstant
      | not => cases hConstant
      | negate => cases hConstant
  | member | index | binary | call | parameter
  | conditional => cases hConstant

/- A bound of the range has no place for a call. -/
theorem functions_of_isBound
    {resolver : Resolver}
    {e : Expr}
    (hBound : e.isBound resolver = true) :
    e.functions = [] := by
  induction e with
  | binary op left right _ _ =>
      simp only [isBound, Bool.and_eq_true,
        Bool.or_eq_true] at hBound
      rw [functions]
      rcases hBound.2 with ⟨hTime, hConstant⟩ |
        ⟨hConstant, hTime⟩
      · rw [functions_of_isTime hTime,
          functions_of_constant? hConstant, List.append_nil]
      · rw [functions_of_isTime hTime,
          functions_of_constant? hConstant, List.append_nil]
  | unary op operand ih =>
      cases op with
      | convert => simpa [functions] using ih hBound
      | not => cases hBound
      | negate => cases hBound
  | constant | member | index | call | parameter
  | conditional => cases hBound

end Expr

/- The functions that the predicates of a query call. -/
def Query.functions (q : Query) : List StringFunction :=
  q.predicates.flatMap Expr.functions

/- Conjuncts in the filter have all functions of a query. -/
theorem Query.functions_conditions
    (resolver : Resolver)
    (q : Query) :
    ((q.conjuncts resolver).filter fun c =>
        !c.expr.isBound resolver).flatMap
          (fun c => c.expr.functions) = q.functions := by
  have hKept : ∀ cs : List Conjunct,
      (cs.filter fun c => !c.expr.isBound resolver).flatMap
          (fun c => c.expr.functions) =
        (cs.map Conjunct.expr).flatMap Expr.functions := by
    intro cs
    induction cs with
    | nil => rfl
    | cons c cs ih =>
        rw [List.map_cons, List.flatMap_cons, ← ih]
        cases hBound : c.expr.isBound resolver with
        | true =>
            simp [hBound, Expr.functions_of_isBound hBound]
        | false => simp [hBound]
  rw [hKept, expr_conjuncts, List.flatMap_assoc]
  simp only [Expr.functions_conjuncts]
  rfl

end TypedFlux

------------------------------------------------------------
-- Calls in Conditions
------------------------------------------------------------

namespace TypedFlux

/- The name of a function is a path, with a dot or without. -/
theorem StringFunction.isPath_fluxName
    (function : StringFunction) :
    function.fluxName.toList.all Scan.isPath = true ∧
      function.fluxName.toList ≠ [] := by
  cases function <;> decide

namespace Expr

open Scan

variable {resolver : Resolver}

/- The texts of a list call what its expressions call. -/
theorem calls_fluxAll
    {es : List Expr}
    (hEach : ∀ e ∈ es, ∀ n, Calls (e.flux resolver n).toList
      (e.functions.map StringFunction.fluxName))
    (n : Nat) :
    (∀ s ∈ fluxAll resolver n es, Closed s.toList) ∧
      (fluxAll resolver n es).flatMap
          (fun s => calls s.toList) =
        (functionsAll es).map StringFunction.fluxName := by
  induction es generalizing n with
  | nil => simp [fluxAll, functionsAll]
  | cons e es ih =>
      rw [List.forall_mem_cons] at hEach
      have hFirst := hEach.1 n
      rcases ih hEach.2
        (n + (e.constants resolver false).length) with
        ⟨hClosed, hCalls⟩
      rw [fluxAll, functionsAll, List.forall_mem_cons,
        List.flatMap_cons, hFirst.calls, hCalls,
        List.map_append]
      exact ⟨⟨hFirst.closed, hClosed⟩, rfl⟩

/- A condition calls the functions of its expression. -/
theorem Expressible.calls_flux
    {e : Expr}
    (hExpressible : e.Expressible)
    (n : Nat) :
    Calls (e.flux resolver n).toList
      (e.functions.map StringFunction.fluxName) := by
  induction hExpressible generalizing n with
  | constant value =>
      rw [flux, functions]
      exact calls_nameAfter n
  | member name =>
      rw [flux, functions]
      exact calls_piecewise.accessor _
  | index name key =>
      rw [flux, functions]
      exact calls_piecewise.accessor _
  | convert _ ih =>
      rw [flux, functions]
      exact ih n
  | @binary op left right _ _ _ ihLeft ihRight =>
      rw [flux, functions, List.map_append]
      exact calls_piecewise.operation (ihLeft n) op (ihRight _)
  | @call receiver method args function hMethod hLength _ _
      ihReceiver ihArgs =>
      have hFunction :=
        function?_eq_some.mpr ⟨hMethod, hLength⟩
      have hReceiver := ihReceiver n
      rcases calls_fluxAll ihArgs
        (n + (receiver.constants resolver false).length) with
        ⟨hClosed, hCalls⟩
      have hTexts : ∀ s ∈ flux resolver n receiver
          :: fluxAll resolver
            (n + (receiver.constants resolver false).length)
            args, Calls s.toList (calls s.toList) := by
        rw [List.forall_mem_cons]
        exact ⟨⟨hReceiver.closed, rfl⟩,
          fun s hMem => ⟨hClosed s hMem, rfl⟩⟩
      have hArguments := calls_piecewise.parameters
        (by rw [hLength, List.length_cons, length_fluxAll])
        (function.piecewise_parameters calls_piecewise) hTexts
      rw [List.flatMap_cons, hReceiver.calls, hCalls,
        ← List.map_append] at hArguments
      have hCall := hArguments.call function.isPath_fluxName.1
        function.isPath_fluxName.2
      rw [String.ofList_toList] at hCall
      simpa [flux, hFunction, functions, hMethod] using hCall

end Expr

end TypedFlux

------------------------------------------------------------
-- Walks Note the Package
------------------------------------------------------------

namespace TypedFlux

namespace Scope

/- Marking a constant as a tag needs no package. -/
theorem usesStrings_markAgainst
    (s : Scope)
    (p q : Part) :
    (s.markAgainst p q).usesStrings = s.usesStrings := by
  unfold markAgainst
  split
  · rfl
  · rfl

/- A call needs the package if its function is in it. -/
theorem usesStrings_call
    (s : Scope)
    (function : StringFunction) :
    (s.call function).usesStrings =
      (s.usesStrings || function.needsImport) := by
  unfold call
  split
  · next hNeeded => rw [hNeeded, Bool.or_true]
  · next hOther =>
      rw [Bool.not_eq_true] at hOther
      rw [hOther, Bool.or_false]

end Scope

namespace Expr

variable {resolver : Resolver}

/- A list needs the package if one of its expressions does. -/
theorem VisitsAll.usesStrings_of
    {es : List Expr}
    {ps : List Part}
    {s u : Scope}
    (hEach : ∀ e ∈ es, ∀ p s t, Visits resolver e s p t →
      t.usesStrings = (s.usesStrings
        || e.functions.any StringFunction.needsImport))
    (hVisits : VisitsAll resolver es s ps u) :
    u.usesStrings = (s.usesStrings
      || (functionsAll es).any
        StringFunction.needsImport) := by
  induction es generalizing s ps with
  | nil =>
      cases hVisits with
      | nil => simp [functionsAll]
  | cons e es ih =>
      rw [List.forall_mem_cons] at hEach
      cases hVisits with
      | cons hFirst hOthers =>
          rw [ih hEach.2 hOthers, hEach.1 _ _ _ hFirst,
            functionsAll, List.any_append, Bool.or_assoc]

/- A walk notes the package for a function of it, at any depth. -/
theorem Visits.usesStrings_eq
    {e : Expr}
    {p : Part}
    {s u : Scope}
    (hVisits : Visits resolver e s p u) :
    u.usesStrings = (s.usesStrings
      || e.functions.any StringFunction.needsImport) := by
  induction e generalizing s p u with
  | constant value =>
      cases hVisits with
      | constant => simp [functions, Scope.bind]
  | member name =>
      cases hVisits with
      | member => simp [functions]
  | index name key =>
      cases hVisits with
      | index => simp [functions]
  | binary op left right ihLeft ihRight =>
      rw [functions, List.any_append, ← Bool.or_assoc]
      cases hVisits with
      | comparison _ hLeft hRight =>
          rw [Scope.usesStrings_markAgainst,
            Scope.usesStrings_markAgainst, ihRight hRight,
            ihLeft hLeft]
      | connective _ _ hLeft hRight =>
          rw [ihRight hRight, ihLeft hLeft]
  | unary op operand ih =>
      cases hVisits with
      | convert hOperand =>
          rw [functions]
          exact ih hOperand
  | call receiver method args ihReceiver ihArgs =>
      cases hVisits with
      | @call _ _ _ function _ _ _ _ _ hFunction hReceiver
          hArgs =>
          have hMethod := (function?_eq_some.mp hFunction).1
          rw [Scope.usesStrings_call,
            hArgs.usesStrings_of fun arg hMem p s t =>
              ihArgs arg hMem, ihReceiver hReceiver, functions,
            hMethod, List.any_append, List.any_append]
          -- the walk notes the function after its arguments
          simp only [Option.toList_some, List.any_cons,
            List.any_nil, Bool.or_false]
          ac_rfl
  | parameter name => cases hVisits
  | conditional test ifTrue ifFalse _ _ _ => cases hVisits

/- The same of any list, by what holds of every walk. -/
theorem VisitsAll.usesStrings_eq
    {es : List Expr}
    {ps : List Part}
    {s u : Scope}
    (hVisits : VisitsAll resolver es s ps u) :
    u.usesStrings = (s.usesStrings
      || (functionsAll es).any StringFunction.needsImport) :=
  hVisits.usesStrings_of fun _ _ _ _ _ hVisit =>
    hVisit.usesStrings_eq

end Expr

/- The functions that a clause calls. -/
def BodyClause.functions : BodyClause → List StringFunction
  | .filter predicate => predicate.functions
  | .order _ => []

namespace Drafting

open Draft TypedFlux.Expr

variable {resolver : Resolver}
variable {d d' : Draft}

/- A filter needs what its predicate calls. -/
theorem filter_usesStrings
    {predicate : Expr}
    {a : Unit}
    (hFilter : filter resolver predicate d = (.ok a, d')) :
    d'.scope.usesStrings = (d.scope.usesStrings
      || predicate.functions.any
        StringFunction.needsImport) := by
  rcases filter_eq_ok.mp hFilter with
    ⟨parts, s, conditions, e, hVisits, hRoutes, rfl⟩
  rcases hRoutes.eq_narrow with ⟨events, hNarrow⟩
  have hScope : e.scope.usesStrings = s.usesStrings := by
    rw [hNarrow]
    rfl
  rw [scope_addConditions, hScope, hVisits.usesStrings_eq,
    functionsAll_eq, functions_conjuncts]

/- A key to sort by is a member, which calls nothing. -/
theorem orderBy_usesStrings
    {key : SortKey}
    {a : Unit}
    (hOrder : orderBy resolver key d = (.ok a, d')) :
    d'.scope.usesStrings = d.scope.usesStrings := by
  rcases orderBy_eq_ok.mp hOrder with
    ⟨role, column, s, hVisits, rfl⟩
  rcases Option.map_eq_some_iff.mp hVisits.role?_eq.symm with
    ⟨name, hMember, _⟩
  have hScope := hVisits.usesStrings_eq
  rw [functions_of_member? hMember, List.any_nil,
    Bool.or_false] at hScope
  exact hScope

/- A key calls nothing, since it is a member. -/
theorem clause_usesStrings
    {c : BodyClause}
    (hClause : clause resolver c d = (.ok PUnit.unit, d')) :
    d'.scope.usesStrings = (d.scope.usesStrings
      || c.functions.any StringFunction.needsImport) := by
  cases c with
  | filter predicate => exact filter_usesStrings hClause
  | order keys =>
      have hKeys := Step.forM_keeps_ok
        (P := fun e : Draft =>
          e.scope.usesStrings = d.scope.usesStrings)
        (fun _ _ _ hSame hOrder =>
          (orderBy_usesStrings hOrder).trans hSame)
        rfl hClause
      rw [hKeys, BodyClause.functions, List.any_nil,
        Bool.or_false]

theorem clauses_usesStrings
    {body : List BodyClause}
    (hBody : body.forM (clause resolver) d =
      (.ok PUnit.unit, d')) :
    d'.scope.usesStrings = (d.scope.usesStrings
      || (body.flatMap BodyClause.functions).any
        StringFunction.needsImport) := by
  induction body generalizing d with
  | nil =>
      cases Step.forM_nil_eq_ok.mp hBody
      rw [List.flatMap_nil, List.any_nil, Bool.or_false]
  | cons c body ih =>
      rcases Step.forM_cons_eq_ok.mp hBody with
        ⟨e, hFirst, hRest⟩
      rw [ih hRest, clause_usesStrings hFirst,
        List.flatMap_cons, List.any_append, Bool.or_assoc]

/- No operator needs the package. -/
theorem operator_usesStrings
    {op : ResultOperator}
    (hOperator : operator op d = (.ok PUnit.unit, d')) :
    d'.scope.usesStrings = d.scope.usesStrings := by
  cases operates_iff.mp hOperator with
  | take | skip | takeLast | any | count | longCount => rfl

end Drafting

/- The functions of a query are those of its filters. -/
theorem Query.functions_body
    (q : Query) :
    q.body.flatMap BodyClause.functions = q.functions := by
  unfold functions predicates
  induction q.body with
  | nil => rfl
  | cons c body ih =>
      cases c with
      | filter predicate =>
          simp [BodyClause.functions, ih]
      | order keys => simp [BodyClause.functions, ih]

/- A draft notes the package for the functions of its query. -/
theorem Draft.usesStrings_ofQuery
    {bucket : String}
    {resolver : Resolver}
    {q : Query}
    {d : Draft}
    (hDraft : Draft.ofQuery bucket resolver q = .ok d) :
    d.scope.usesStrings =
      q.functions.any StringFunction.needsImport := by
  rcases ofQuery_eq_ok.mp hDraft with ⟨e, hBody, hOperators⟩
  have hClauses := Drafting.clauses_usesStrings hBody
  rw [Query.functions_body] at hClauses
  have hSame := Step.forM_keeps_ok
    (P := fun d : Draft =>
      d.scope.usesStrings = e.scope.usesStrings)
    (fun _ _ _ hSame hOperator =>
      (Drafting.operator_usesStrings hOperator).trans hSame)
    rfl hOperators
  rw [hSame, hClauses]
  exact Bool.false_or _

end TypedFlux

------------------------------------------------------------
-- Calls of Stages
------------------------------------------------------------

namespace TypedFlux

namespace Stage

open Scan Variables

/- The test that a stage makes of each row. -/
def test : Stage → String
  | .filter conditions =>
      " and ".intercalate (conditions.map (·.text))
  | _ => ""

/- The functions that a stage calls. -/
def callees (stage : Stage) : List String :=
  stage.functionName :: calls stage.test.toList

/- A stage whose arguments call nothing. -/
theorem calls_quiet
    {function : String}
    {items : List (String × String)}
    (hPath : function.toList.all isPath = true)
    (hNonempty : function.toList ≠ [])
    (hItems : ∀ a ∈ items,
      a.1.toList.all isWord = true ∧ Calls a.2.toList []) :
    calls (call function items).toList = [function] := by
  have hCall := calls_call hPath hNonempty hItems
  rw [hCall.calls, List.flatMap_eq_nil_iff.mpr fun _ _ => rfl]

/- An argument that may be absent calls nothing. -/
theorem quiet_optional
    {argument : String}
    (hName : argument.toList.all isWord = true)
    (position? : Option Nat) :
    ∀ a ∈ optional argument position?,
      a.1.toList.all isWord = true ∧ Calls a.2.toList [] := by
  cases position? with
  | none => simp [optional]
  | some n =>
      intro a hMem
      rw [List.mem_singleton.mp hMem]
      exact ⟨hName, calls_nameAfter n⟩

/- A row is bound in front of what is said of it. -/
theorem calls_lambda
    {s : String}
    {fs : List String}
    (hCalls : Calls s.toList fs) :
    Calls ("(r) => " ++ s).toList fs := by
  have hRow : Calls ['(', 'r', ')'] [] :=
    calls_piecewise.paren (@calls_word ['r'] rfl)
  have hArrow : Calls "=>".toList [] :=
    calls_piecewise.marks rfl
  have hRest := calls_piecewise.append (d := ' ') hArrow rfl
    hCalls
  rw [String.toList_append]
  exact calls_piecewise.append (d := ' ') hRow rfl hRest

/- A column stands in quotes, so it cannot call. -/
theorem calls_columns
    (column : String) :
    Calls ("[" ++ Flux.quote column ++ "]").toList [] := by
  have hBlank : Calls [] [] := calls_word rfl
  have hColumn := calls_piecewise.append (d := ']')
    (calls_piecewise.quote column) rfl hBlank
  have hText : ("[" ++ Flux.quote column ++ "]").toList =
      [] ++ '[' :: ((Flux.quote column).toList ++ [']']) := by
    simp
  rw [hText]
  exact calls_piecewise.append (d := '[') hBlank rfl hColumn

/- Only a filter calls more than the function of its stage. -/
theorem calls_text
    (stage : Stage) :
    calls stage.text.toList = stage.callees := by
  cases stage with
  | source bucket =>
      refine calls_quiet rfl (by decide) ?_
      simp only [List.mem_singleton, forall_eq]
      exact ⟨rfl, calls_nameAfter bucket⟩
  | range start stop? =>
      refine calls_quiet rfl (by decide) ?_
      simp only [List.forall_mem_cons]
      exact ⟨⟨rfl, calls_nameAfter start⟩,
        quiet_optional rfl stop?⟩
  | pivot => decide
  | filter conditions =>
      -- the only argument with calls of its own is the test
      have hTest : Calls (" and ".intercalate
          (conditions.map (·.text))).toList _ :=
        ⟨closed_conditions conditions, rfl⟩
      have hItems : ∀ a ∈ [("fn", "(r) => " ++
          " and ".intercalate (conditions.map (·.text)))],
            a.1.toList.all isWord = true ∧ Calls a.2.toList
              (calls (" and ".intercalate
                (conditions.map (·.text))).toList) := by
        simp only [List.mem_singleton, forall_eq]
        exact ⟨rfl, calls_lambda hTest⟩
      have hFilter := @calls_call "filter" _ _ rfl (by decide)
        hItems
      rw [List.flatMap_singleton] at hFilter
      exact hFilter.calls
  | sort column descending =>
      refine calls_quiet rfl (by decide) ?_
      simp only [List.forall_mem_cons]
      exact ⟨⟨rfl, calls_columns column⟩,
        ⟨rfl, calls_nameAfter descending⟩, by simp⟩
  | limit count? offset? =>
      refine calls_quiet rfl (by decide) ?_
      simp only [List.forall_mem_cons]
      refine ⟨⟨rfl, ?_⟩, quiet_optional rfl offset?⟩
      cases count? with
      | none => exact calls_word rfl
      | some n => exact calls_nameAfter n
  | tail count =>
      refine calls_quiet rfl (by decide) ?_
      simp only [List.mem_singleton, forall_eq]
      exact ⟨rfl, calls_nameAfter count⟩
  | runningCount =>
      refine calls_quiet rfl (by decide) ?_
      have hTrue : Calls "true".toList [] := calls_word rfl
      simp only [List.forall_mem_cons]
      exact ⟨⟨rfl, calls_lambda hTrue⟩,
        ⟨rfl, calls_piecewise.quote "linq_result_column"⟩,
        by simp⟩
  | lastRow =>
      refine calls_quiet rfl (by decide) ?_
      simp only [List.mem_singleton, forall_eq]
      exact ⟨rfl, calls_piecewise.quote "linq_result_column"⟩
  | keepCount =>
      refine calls_quiet rfl (by decide) ?_
      simp only [List.mem_singleton, forall_eq]
      exact ⟨rfl, calls_columns "linq_result_column"⟩

end Stage

/- Whether a function is in the package of string functions. -/
def Scan.inStrings (function : String) : Bool :=
  "strings.".toList.isPrefixOf function.toList

/- A name shows whether its function needs the package. -/
theorem StringFunction.inStrings_fluxName
    (function : StringFunction) :
    Scan.inStrings function.fluxName =
      function.needsImport := by
  cases function <;> decide

theorem StringFunction.needsImport_iff
    (function : StringFunction) :
    function.needsImport = true ↔ function ≠ .toString := by
  cases function <;> decide

/- The functions of the package that a test calls. -/
def Stage.stringCalls (stage : Stage) : List String :=
  (Scan.calls stage.test.toList).filter Scan.inStrings

/- No stage is itself a function of the package. -/
theorem Stage.filter_callees
    (stage : Stage) :
    stage.callees.filter Scan.inStrings =
      stage.stringCalls := by
  have hOutside : Scan.inStrings stage.functionName = false := by
    cases stage <;> simp only [Stage.functionName] <;> decide
  exact List.filter_cons_of_neg (by simp [hOutside])

namespace Plan

open Scan

/- The calls in a text are those of its stages. -/
theorem calls_pipeline
    (p : Plan) :
    calls p.pipeline.text.toList =
      p.stages.flatMap Stage.callees := by
  have hWhole : ∀ s ∈ p.stages.map Stage.text,
      Whole s.toList := by
    intro s hMem
    rcases List.mem_map.mp hMem with ⟨stage, _, rfl⟩
    exact stage.whole_text
  have hCalls : calls
      (" |> ".intercalate (p.stages.map Stage.text)).toList =
        (p.stages.map Stage.text).flatMap
          fun s => calls s.toList :=
    calls_stages hWhole
  unfold Pipeline.text
  rw [stages_pipeline, hCalls, List.flatMap_map]
  simp only [Stage.calls_text]

/- String functions are called in conditions only. -/
theorem filter_calls
    (p : Plan) :
    (calls p.pipeline.text.toList).filter inStrings =
      (calls (" and ".intercalate
        p.pipeline.filters).toList).filter inStrings := by
  have hFilter : (filterStages p.conditions).flatMap
      Stage.stringCalls = (calls (" and ".intercalate
        (p.conditions.map (·.text))).toList).filter
          inStrings := by
    cases p.conditions with
    | nil => rfl
    | cons c cs => exact List.flatMap_singleton _ _
  have hSorts : (p.sorts.map fun s =>
      Stage.sort s.1 s.2).flatMap Stage.stringCalls = [] := by
    rw [List.flatMap_map]
    exact List.flatMap_eq_nil_iff.mpr fun _ _ => rfl
  have hLimit : (limitStages p.limit? p.offset?).flatMap
      Stage.stringCalls = [] := by
    cases p.limit? <;> cases p.offset? <;> rfl
  have hTail : (p.tail?.map Stage.tail).toList.flatMap
      Stage.stringCalls = [] := by
    cases p.tail? <;> rfl
  have hCount : (countStages p.reduction?).flatMap
      Stage.stringCalls = [] := by
    rcases p.reduction? with _ | ⟨⟨⟩⟩ <;> rfl
  rw [calls_pipeline, List.filter_flatMap, stages]
  simp only [Stage.filter_callees, List.flatMap_append, hFilter,
    hSorts, hLimit, hTail, hCount, List.append_nil]
  rfl

end Plan

end TypedFlux

------------------------------------------------------------
-- Imports of a Script
------------------------------------------------------------

namespace TypedFlux

namespace Draft

open Scan

variable {bucket : String}
variable {resolver : Resolver}
variable {q : Query}
variable {d : Draft}

/- A script calls the string functions of its query, in order. -/
theorem filter_calls_script
    (hDraft : Draft.ofQuery bucket resolver q = .ok d) :
    (calls d.script.query.toList).filter inStrings =
      (q.functions.filter StringFunction.needsImport).map
        StringFunction.fluxName := by
  rcases ofQuery_follows hDraft with ⟨plan, hPipeline, _⟩
  have hTexts : ∀ c ∈ (q.conjuncts resolver).filter
      (fun c => !c.expr.isBound resolver),
        Calls (c.text resolver).toList
          (c.expr.functions.map StringFunction.fluxName) := by
    intro c hKept
    have hExpr := List.mem_map_of_mem (f := Conjunct.expr)
      (List.mem_filter.mp hKept).1
    rw [q.expr_conjuncts] at hExpr
    exact (ofQuery_conjuncts hDraft _ hExpr).1.calls_flux _
  have hJoin := calls_piecewise.join
    calls_piecewise.separates_and hTexts
  have hQuery : d.script.query = d.pipeline.text := rfl
  -- bounds are not in the filter, but they call nothing either
  rw [hQuery, hPipeline, plan.filter_calls, ← hPipeline,
    (ofQuery_parts hDraft).joined, Conjunct.conditions,
    hJoin.calls, ← List.map_flatMap,
    q.functions_conditions, List.filter_map]
  simp only [Function.comp_def,
    StringFunction.inStrings_fluxName]

/-
  A script calls into the package exactly if the query has a
  function of it.
-/
theorem calls_strings_iff
    (hDraft : Draft.ofQuery bucket resolver q = .ok d) :
    (∃ f ∈ calls d.script.query.toList, inStrings f = true) ↔
      ∃ function ∈ q.functions,
        function.needsImport = true := by
  have hCalls := filter_calls_script hDraft
  constructor
  · rintro ⟨f, hMem, hIn⟩
    have hCall := List.mem_filter.mpr ⟨hMem, hIn⟩
    rw [hCalls] at hCall
    rcases List.mem_map.mp hCall with ⟨function, hFunction, _⟩
    exact ⟨function, List.mem_filter.mp hFunction⟩
  · rintro ⟨function, hFunction⟩
    have hCall := List.mem_map_of_mem
      (f := StringFunction.fluxName)
      (List.mem_filter.mpr hFunction)
    rw [← hCalls] at hCall
    exact ⟨function.fluxName, List.mem_filter.mp hCall⟩

/-
  The package of string functions is imported if and only if a
  function of it is called, which some method in a predicate
  asks for.
-/
theorem imports_iff_calls
    (bucket : String)
    (resolver : Resolver)
    (q : Query)
    (d : Draft)
    (hDraft : Draft.ofQuery bucket resolver q = .ok d) :
    (d.script.imports = ["strings"] ↔
        ∃ f ∈ calls d.script.query.toList,
          inStrings f = true) ∧
      ((∃ f ∈ calls d.script.query.toList,
          inStrings f = true) ↔
        ∃ predicate ∈ q.predicates,
          ∃ function ∈ predicate.functions,
            function ≠ .toString) ∧
      (d.script.imports = [] ↔
        ∀ predicate ∈ q.predicates,
          ∀ function ∈ predicate.functions,
            function = .toString) := by
  have hCalls := calls_strings_iff hDraft
  have hNoted : d.scope.usesStrings = true ↔
      ∃ function ∈ q.functions,
        function.needsImport = true := by
    rw [usesStrings_ofQuery hDraft, List.any_eq_true]
  have hMethods : (∃ function ∈ q.functions,
      function.needsImport = true) ↔
        ∃ predicate ∈ q.predicates,
          ∃ function ∈ predicate.functions,
            function ≠ .toString := by
    simp only [StringFunction.needsImport_iff]
    constructor
    · rintro ⟨function, hMem, hOther⟩
      rcases List.mem_flatMap.mp hMem with
        ⟨predicate, hPredicate, hFunction⟩
      exact ⟨predicate, hPredicate, function, hFunction, hOther⟩
    · rintro ⟨predicate, hPredicate, function, hFunction, hOther⟩
      exact ⟨function, List.mem_flatMap.mpr
        ⟨predicate, hPredicate, hFunction⟩, hOther⟩
  refine ⟨?_, hCalls.trans hMethods, ?_⟩
  · rw [hCalls, ← hNoted]
    simp [script]
  · have hNone : d.script.imports = [] ↔
        ¬ d.scope.usesStrings = true := by
      simp [script]
    rw [hNone, hNoted, hMethods]
    push Not
    rfl

/-
  A method below another, of a column that is spelled as a call,
  next to a bound of the range.
-/
def labelQuery (method : String) : Query where
  entity := "device"
  body := [
    .filter (.binary .andAlso
      (.binary .greaterThan (.member "at") (.constant (.int 1)))
      (.binary .equal
        (.call (.call (.member "f(\"strings.g(") method [])
          "ToString" [])
        (.constant (.string "strings.h("))))]
  operators := [.take (.constant (.int 5))]

/-
  One function of the package, and the one that is not in it.
-/
theorem imports_iff_calls_labelQuery :
    (∃ d, Draft.ofQuery "b" deviceResolver
        (labelQuery "ToUpper") = .ok d ∧
      d.script.imports = ["strings"]) ∧
    (∃ d, Draft.ofQuery "b" deviceResolver
        (labelQuery "ToString") = .ok d ∧
      d.script.imports = []) := by
  constructor
  · rcases (⟨_, rfl⟩ : ∃ d, Draft.ofQuery "b" deviceResolver
      (labelQuery "ToUpper") = .ok d) with ⟨d, hDraft⟩
    have hExact := imports_iff_calls "b" deviceResolver
      (labelQuery "ToUpper") d hDraft
    exact ⟨d, hDraft, hExact.1.mpr
      (hExact.2.1.mpr (by decide +kernel))⟩
  · rcases (⟨_, rfl⟩ : ∃ d, Draft.ofQuery "b" deviceResolver
      (labelQuery "ToString") = .ok d) with ⟨d, hDraft⟩
    have hExact := imports_iff_calls "b" deviceResolver
      (labelQuery "ToString") d hDraft
    exact ⟨d, hDraft, hExact.2.2.mpr (by decide +kernel)⟩

end Draft

end TypedFlux
