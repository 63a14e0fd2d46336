import TypedFlux.Proofs.Draft.Clauses
import TypedFlux.Proofs.Flux.Stages

/-
  Drafts follow plans.

  Every text that a clause or an operator puts into a pipeline
  is the name of a variable, a column in quotes, or a condition
  that closes what it opens.  So the stages of a query can be
  told from the query alone, and no others are in its text.

  Key definitions include:
    * `Expr.isBound`, `Expr.Fits`
    * `Query.outline`
    * `Draft.Follows`

  Key theorems include:
    * `Expr.Visits.isClosed`
    * `Expr.Visits.fits`
    * `Drafting.clause_follows`
    * `Drafting.operator_follows`
    * `Draft.stages_script`
-/

------------------------------------------------------------
-- Texts of Parts
------------------------------------------------------------

namespace TypedFlux

namespace Part

open Scan

/- The text of a part, if it has one, is closed. -/
def IsClosed (p : Part) : Prop :=
  ∀ text, p.text = .ok text → Closed text.toList

/- A column is in quotes, so it opens nothing. -/
theorem closed_accessor
    (column : String) :
    Closed (accessor column).toList := by
  unfold accessor
  simp only [String.toList_append]
  exact ((closed_of_isPlain rfl).append
    (closed_quote column)).append (closed_of_isPlain rfl)

theorem closed_token
    {op : BinaryOp}
    {token : String}
    (hToken : op.token? = some token) :
    Closed token.toList := by
  apply closed_of_isPlain
  cases op <;> cases hToken <;> rfl

/- An operation closes its own parentheses. -/
theorem closed_operation
    {left token right : String}
    (hLeft : Closed left.toList)
    (hToken : Closed token.toList)
    (hRight : Closed right.toList) :
    Closed (operation left token right).toList := by
  have hBlank : Closed " ".toList := closed_of_isPlain rfl
  have hInner := (((hLeft.append hBlank).append hToken).append
    hBlank).append hRight
  have hText : (operation left token right).toList =
      '(' :: ((left.toList ++ " ".toList ++ token.toList
        ++ " ".toList ++ right.toList) ++ [')']) := by
    simp [operation]
  rw [hText]
  exact closed_paren hInner

theorem isClosed_column
    (role : Role)
    (column : String) :
    IsClosed (.column role column) := by
  intro text hText
  cases hText
  exact closed_accessor column

/-
  A text is closed if those of its operands are. An operator
  without a token gives no text.
-/
theorem isClosed_binary
    {op : BinaryOp}
    {p q : Part}
    (hLeft : p.IsClosed)
    (hRight : q.IsClosed) :
    IsClosed (.binary op p q) := by
  intro text hText
  cases hToken : op.token? with
  | none => simp [Part.text, hToken] at hText
  | some token =>
      simp only [Part.text, hToken] at hText
      rcases Step.except_bind_eq_ok.mp hText with ⟨l, hl, hText⟩
      rcases Step.except_bind_eq_ok.mp hText with ⟨r, hr, hText⟩
      cases hText
      exact closed_operation (hLeft l hl) (closed_token hToken)
        (hRight r hr)

/- A bound is compared with the time on either side. -/
theorem isClosed_comparison
    {op : BinaryOp}
    {p q : Part}
    (hLeft : p.IsClosed)
    (hRight : q.IsClosed) :
    IsClosed (Part.comparison op p q) := by
  unfold Part.comparison
  split
  · exact fun text hText =>
      isClosed_binary (isClosed_column .timestamp "_time")
        hRight text hText
  · split
    · exact fun text hText =>
        isClosed_binary hLeft
          (isClosed_column .timestamp "_time") text hText
    · exact isClosed_binary hLeft hRight

/- Each argument stands behind the name of its parameter. -/
theorem closed_argTexts
    {parameters : List String}
    {args : List Part}
    {texts : List String}
    (hParameters : ∀ s ∈ parameters,
      s.toList.all isPlain = true)
    (hArgs : ∀ p ∈ args, p.IsClosed)
    (hTexts : argTexts parameters args = .ok texts) :
    ∀ s ∈ texts, Closed s.toList := by
  induction args generalizing parameters texts with
  | nil =>
      cases parameters <;> cases hTexts <;> simp
  | cons p args ih =>
      cases parameters with
      | nil =>
          cases hTexts
          simp
      | cons parameter parameters =>
          simp only [argTexts] at hTexts
          rcases Step.except_bind_eq_ok.mp hTexts with
            ⟨first, hFirst, hTexts⟩
          rcases Step.except_bind_eq_ok.mp hTexts with
            ⟨rest, hRest, hTexts⟩
          cases hTexts
          rw [List.forall_mem_cons] at hParameters hArgs ⊢
          refine ⟨?_, ih hParameters.2 hArgs.2 hRest⟩
          simp only [String.toList_append]
          exact ((closed_of_isPlain hParameters.1).append
            (closed_of_isPlain rfl)).append
              (hArgs.1 first hFirst)

/- A call closes the parenthesis behind its name. -/
theorem isClosed_call
    {function : StringFunction}
    {args : List Part}
    (hArgs : ∀ p ∈ args, p.IsClosed) :
    IsClosed (.call function args) := by
  intro text hText
  simp only [Part.text] at hText
  rcases Step.except_bind_eq_ok.mp hText with
    ⟨texts, hTexts, hText⟩
  cases hText
  have hParameters : ∀ s ∈ function.parameters,
      s.toList.all isPlain = true := by
    cases function <;> decide
  have hName : function.fluxName.toList.all isPlain = true := by
    cases function <;> rfl
  have hJoined := closed_join (closed_of_isPlain
    (show ", ".toList.all isPlain = true from rfl))
    (closed_argTexts hParameters hArgs hTexts)
  have hText : (function.fluxName ++ "(" ++ ", ".intercalate texts
      ++ ")").toList = function.fluxName.toList
        ++ '(' :: ((", ".intercalate texts).toList ++ [')']) := by
    simp
  rw [hText]
  exact (closed_of_isPlain hName).append (closed_paren hJoined)

end Part

end TypedFlux

------------------------------------------------------------
-- Parts of Expressions
------------------------------------------------------------

namespace TypedFlux

namespace Expr

variable {resolver : Resolver}

/- Each part of a list comes from an expression in it. -/
theorem VisitsAll.exists_visits
    {es : List Expr}
    {ps : List Part}
    {s u : Scope}
    (hVisits : VisitsAll resolver es s ps u)
    {p : Part}
    (hMem : p ∈ ps) :
    ∃ e ∈ es, ∃ s t, Visits resolver e s p t := by
  induction es generalizing s ps with
  | nil =>
      cases hVisits with
      | nil => exact absurd hMem List.not_mem_nil
  | cons e es ih =>
      cases hVisits with
      | cons hFirst hOthers =>
          rcases List.mem_cons.mp hMem with rfl | hMem
          · exact ⟨e, List.mem_cons_self, _, _, hFirst⟩
          · rcases ih hOthers hMem with ⟨e', hMem', hVisits⟩
            exact ⟨e', List.mem_cons_of_mem _ hMem', hVisits⟩

/- What a walk finds has a closed text. -/
theorem Visits.isClosed
    {e : Expr}
    {p : Part}
    {s u : Scope}
    (hVisits : Visits resolver e s p u) :
    p.IsClosed := by
  induction e generalizing s p u with
  | constant value =>
      cases hVisits with
      | constant =>
          intro text hText
          cases hText
          exact Scan.closed_nameAfter _
  | member name =>
      cases hVisits with
      | member =>
          rw [Part.ofColumn_eq_cell]
          exact Part.isClosed_column _ _
  | index name key =>
      cases hVisits with
      | index =>
          intro text hText
          cases hText
          exact Part.closed_accessor _
  | binary op left right ihLeft ihRight =>
      cases hVisits with
      | comparison _ hLeft hRight =>
          exact Part.isClosed_comparison (ihLeft hLeft)
            (ihRight hRight)
      | connective _ _ hLeft hRight =>
          exact Part.isClosed_binary (ihLeft hLeft)
            (ihRight hRight)
  | unary op operand ih =>
      cases hVisits with
      | convert hOperand => exact ih hOperand
  | call receiver method args ihReceiver ihArgs =>
      cases hVisits with
      | call _ hReceiver hArgs =>
          apply Part.isClosed_call
          rw [List.forall_mem_cons]
          refine ⟨ihReceiver hReceiver, ?_⟩
          intro p hMem
          rcases hArgs.exists_visits hMem with
            ⟨arg, hArg, s, t, hVisits⟩
          exact ihArgs arg hArg hVisits
  | parameter name => cases hVisits
  | conditional test ifTrue ifFalse _ _ _ => cases hVisits

/- Whether an expression is the time of a row. -/
def isTime (resolver : Resolver) : Expr → Bool
  | .member name => resolver.role name = .timestamp
  | .unary .convert operand => operand.isTime resolver
  | _ => false

/- The column of a key to sort by, if it is a member. -/
def sortColumn (resolver : Resolver) : Expr → String
  | .member name => resolver.cell name
  | .unary .convert operand => operand.sortColumn resolver
  | _ => ""

/-
  Whether a conjunct bounds the range: it compares the time of
  a row with a constant.
-/
def isBound (resolver : Resolver) : Expr → Bool
  | .binary op left right =>
      op.isComparison
        && (left.isTime resolver
            && (Drafting.constant? right).isSome
          || (Drafting.constant? left).isSome
            && right.isTime resolver)
  | .unary .convert operand => operand.isBound resolver
  | _ => false

/-
  What an expression tells of its part, so that later proofs
  need not walk.
-/
structure Fits
    (resolver : Resolver)
    (e : Expr)
    (p : Part) : Prop where
  time : p.isTimeColumn = e.isTime resolver
  literal : p.isLiteral = (Drafting.constant? e).isSome
  name : ∀ x, p = .literal x → ∃ n, x = Variables.nameAfter n
  column : ∀ role x, p = .column role x →
    x = e.sortColumn resolver
  condition : p.isCondition = !e.isBound resolver
  bound : ∀ b side op, p.timeBound? = some (b, side, op) →
    ∃ n, b = .literal (Variables.nameAfter n)

end Expr

namespace Part

theorem isTimeColumn_of_isLiteral
    {p : Part}
    (hLiteral : p.isLiteral = true) :
    p.isTimeColumn = false := by
  cases p with
  | literal name => rfl
  | column | binary | call | indexed | timeBound | blank =>
      cases hLiteral

/-
  A comparison is a condition unless it compares the time with
  a constant, on either side.
-/
theorem isCondition_comparison
    (op : BinaryOp)
    (p q : Part) :
    (Part.comparison op p q).isCondition =
      !(p.isTimeColumn && q.isLiteral
        || p.isLiteral && q.isTimeColumn) := by
  have hLeft := @isTimeColumn_of_isLiteral p
  have hRight := @isTimeColumn_of_isLiteral q
  unfold Part.comparison
  cases hp : p.isTimeColumn <;> cases hq : q.isTimeColumn <;>
    cases hp' : p.isLiteral <;> cases hq' : q.isLiteral <;>
    simp_all [isCondition]

/- A comparison is a bound only against a constant. -/
theorem comparison_cases
    (op : BinaryOp)
    (p q : Part) :
    (Part.comparison op p q = .timeBound none (some q) op ∧
        q.isLiteral = true) ∨
      (Part.comparison op p q = .timeBound (some p) none op ∧
        p.isLiteral = true) ∨
      Part.comparison op p q = .binary op p q := by
  unfold Part.comparison
  split
  · next hTime =>
      simp only [Bool.and_eq_true] at hTime
      exact .inl ⟨rfl, hTime.2⟩
  · split
    · next hTime =>
        simp only [Bool.and_eq_true] at hTime
        exact .inr (.inl ⟨rfl, hTime.2⟩)
    · exact .inr (.inr rfl)

/- A literal has a name. -/
theorem eq_literal_of_isLiteral
    {p : Part}
    (hLiteral : p.isLiteral = true) :
    ∃ name, p = .literal name := by
  cases p with
  | literal name => exact ⟨name, rfl⟩
  | column | binary | call | indexed | timeBound | blank =>
      cases hLiteral

end Part

namespace Expr

variable {resolver : Resolver}

/- The name of a literal is that of a position. -/
theorem Fits.exists_name
    {e : Expr}
    {p : Part}
    (hFits : Fits resolver e p)
    (hLiteral : p.isLiteral = true) :
    ∃ n, p = .literal (Variables.nameAfter n) := by
  rcases Part.eq_literal_of_isLiteral hLiteral with ⟨x, rfl⟩
  rcases hFits.name x rfl with ⟨n, rfl⟩
  exact ⟨n, rfl⟩

/-
  What two operands tell of their parts, a comparison of them
  tells of its own.
-/
theorem Fits.comparison
    {op : BinaryOp}
    {left right : Expr}
    {p q : Part}
    (hComparison : op.isComparison = true)
    (hLeft : Fits resolver left p)
    (hRight : Fits resolver right q) :
    Fits resolver (.binary op left right)
      (Part.comparison op p q) := by
  -- the operands decide before the three forms are split
  have hCondition := Part.isCondition_comparison op p q
  rw [hLeft.time, hRight.time, hLeft.literal, hRight.literal]
    at hCondition
  have hBound : (Part.comparison op p q).isCondition =
      !(Expr.binary op left right).isBound resolver := by
    rw [hCondition]
    simp [isBound, hComparison]
  rcases Part.comparison_cases op p q with
    ⟨hEq, hLiteral⟩ | ⟨hEq, hLiteral⟩ | hEq
  · rw [hEq] at hBound ⊢
    refine ⟨rfl, rfl, by simp, by simp, hBound, ?_⟩
    rintro b side op' ⟨⟩
    exact hRight.exists_name hLiteral
  · rw [hEq] at hBound ⊢
    refine ⟨rfl, rfl, by simp, by simp, hBound, ?_⟩
    rintro b side op' ⟨⟩
    exact hLeft.exists_name hLiteral
  · rw [hEq] at hBound ⊢
    exact ⟨rfl, rfl, by simp, by simp, hBound,
      by simp [Part.timeBound?]⟩

/- A walk finds what the expression tells. -/
theorem Visits.fits
    {e : Expr}
    {p : Part}
    {s u : Scope}
    (hVisits : Visits resolver e s p u) :
    Fits resolver e p := by
  induction e generalizing s p u with
  | constant value =>
      cases hVisits with
      | constant =>
          refine ⟨rfl, rfl, ?_, by simp, rfl,
            by simp [Part.timeBound?]⟩
          rintro x ⟨⟩
          exact ⟨_, rfl⟩
  | member name =>
      cases hVisits with
      | member =>
          rw [Part.ofColumn_eq_cell]
          refine ⟨?_, rfl, by simp, ?_, rfl,
            by simp [Part.timeBound?]⟩
          · unfold isTime
            cases resolver.role name <;> rfl
          · rintro role x ⟨⟩
            rfl
  | index name key =>
      cases hVisits with
      | index =>
          exact ⟨rfl, rfl, by simp, by simp, rfl,
            by simp [Part.timeBound?]⟩
  | binary op left right ihLeft ihRight =>
      cases hVisits with
      | comparison hComparison hLeft hRight =>
          exact (ihLeft hLeft).comparison hComparison
            (ihRight hRight)
      | connective hOther _ _ _ =>
          refine ⟨rfl, rfl, by simp, by simp, ?_,
            by simp [Part.timeBound?]⟩
          simp [isBound, hOther, Part.isCondition]
  | unary op operand ih =>
      cases hVisits with
      | convert hOperand =>
          have hFits := ih hOperand
          exact ⟨hFits.time, hFits.literal, hFits.name,
            hFits.column, hFits.condition, hFits.bound⟩
  | call receiver method args _ _ =>
      cases hVisits with
      | call =>
          exact ⟨rfl, rfl, by simp, by simp, rfl,
            by simp [Part.timeBound?]⟩
  | parameter name => cases hVisits
  | conditional test ifTrue ifFalse _ _ _ => cases hVisits

end Expr

end TypedFlux

------------------------------------------------------------
-- Outlines of Queries
------------------------------------------------------------

namespace TypedFlux

namespace ResultOperator

/- Whether rows are counted from the front. -/
@[simp] def isLimit : ResultOperator → Bool
  | .take _ | .skip _ => true
  | _ => false

/- Whether rows are taken from the end. -/
@[simp] def isTail : ResultOperator → Bool
  | .takeLast _ => true
  | _ => false

/- Whether the number of rows is asked for. -/
@[simp] def isCount : ResultOperator → Bool
  | .count | .longCount => true
  | _ => false

end ResultOperator

/- Whether a predicate says more than bounds of the range. -/
def Expr.hasCondition
    (resolver : Resolver)
    (predicate : Expr) : Bool :=
  predicate.conjuncts.any fun e => !e.isBound resolver

/- The keys to sort by, in their order. -/
def Query.sortKeys (q : Query) : List SortKey :=
  q.body.flatMap fun clause =>
    match clause with
    | .filter _ => []
    | .order keys => keys

/- What a query asks of the rows. -/
def Query.outline
    (resolver : Resolver)
    (q : Query) : Outline where
  filtered := q.predicates.any (·.hasCondition resolver)
  sorted := q.sortKeys.map (·.expr.sortColumn resolver)
  limited := q.operators.any (·.isLimit)
  tailed := q.operators.any (·.isTail)
  counted := q.operators.any (·.isCount)

namespace Outline

/- One more key to sort by. -/
def addKey
    (resolver : Resolver)
    (o : Outline)
    (key : SortKey) : Outline :=
  { o with
    sorted := o.sorted ++ [key.expr.sortColumn resolver] }

/- One more clause. -/
def addClause
    (resolver : Resolver)
    (o : Outline) : BodyClause → Outline
  | .filter predicate =>
      { o with
        filtered := o.filtered || predicate.hasCondition resolver }
  | .order keys => keys.foldl (addKey resolver) o

/- One more operator. -/
def addOperator
    (o : Outline)
    (op : ResultOperator) : Outline :=
  { o with
    limited := o.limited || op.isLimit
    tailed := o.tailed || op.isTail
    counted := o.counted || op.isCount }

/- Keys are added one behind the other. -/
theorem foldl_addKey
    (resolver : Resolver)
    (keys : List SortKey)
    (o : Outline) :
    keys.foldl (addKey resolver) o =
      { o with
        sorted := o.sorted
          ++ keys.map (·.expr.sortColumn resolver) } := by
  induction keys generalizing o with
  | nil => simp
  | cons key keys ih => simp [ih, addKey]

/- Operators set what they ask for, in any order. -/
theorem foldl_addOperator
    (ops : List ResultOperator)
    (o : Outline) :
    ops.foldl addOperator o =
      { o with
        limited := o.limited || ops.any (·.isLimit)
        tailed := o.tailed || ops.any (·.isTail)
        counted := o.counted || ops.any (·.isCount) } := by
  induction ops generalizing o with
  | nil => simp
  | cons op ops ih => simp [ih, addOperator, Bool.or_assoc]

/- Clauses add their conditions and their keys. -/
theorem foldl_addClause
    (resolver : Resolver)
    (entity : String)
    (body : List BodyClause)
    (o : Outline) :
    body.foldl (addClause resolver) o =
      { o with
        filtered := o.filtered
          || (Query.predicates ⟨entity, body, []⟩).any
            (·.hasCondition resolver)
        sorted := o.sorted
          ++ (Query.sortKeys ⟨entity, body, []⟩).map
            (·.expr.sortColumn resolver) } := by
  induction body generalizing o with
  | nil => simp [Query.predicates, Query.sortKeys]
  | cons clause body ih =>
      cases clause with
      | filter predicate =>
          simp [ih, addClause, Query.predicates,
            Query.sortKeys, Bool.or_assoc]
      | order keys =>
          simp [ih, addClause, foldl_addKey, Query.predicates,
            Query.sortKeys]

/- An outline grows clause by clause, then by operators. -/
theorem foldl_eq_outline
    (resolver : Resolver)
    (q : Query) :
    q.operators.foldl addOperator
        (q.body.foldl (addClause resolver) {}) =
      q.outline resolver := by
  rw [foldl_addClause resolver q.entity, foldl_addOperator]
  simp [Query.outline, Query.predicates, Query.sortKeys]

end Outline

end TypedFlux

------------------------------------------------------------
-- Steps Follow Outlines
------------------------------------------------------------

namespace TypedFlux

/- A pipeline comes from a plan with an outline. -/
def Pipeline.Follows
    (p : Pipeline)
    (o : Outline) : Prop :=
  ∃ plan : Plan, p = plan.pipeline ∧ plan.outline = o

/- A change of a pipeline that is a change of its plan. -/
theorem Pipeline.Follows.map
    {p : Pipeline}
    {o : Outline}
    {f : Pipeline → Pipeline}
    {h : Outline → Outline}
    (hFollows : p.Follows o)
    (g : Plan → Plan)
    (hPlan : ∀ plan, f plan.pipeline = (g plan).pipeline)
    (hOutline : ∀ plan, (g plan).outline = h plan.outline) :
    (f p).Follows (h o) := by
  rcases hFollows with ⟨plan, rfl, rfl⟩
  exact ⟨g plan, hPlan plan, hOutline plan⟩

/- The pipeline of a draft does. -/
def Draft.Follows
    (d : Draft)
    (o : Outline) : Prop :=
  d.pipeline.Follows o

namespace Range

variable {o : Outline}

/- A bound that is a variable belongs into a plan. -/
theorem set_follows
    {r : Range}
    (hFollows : r.pipeline.Follows o)
    (n : Nat)
    (bound : Bound) :
    (r.set (Variables.nameAfter n) bound).pipeline.Follows
      o := by
  cases bound with
  | start =>
      exact hFollows.map (f := (·.setStart _)) (h := id)
        (fun plan => { plan with start := n })
        (fun _ => rfl) (fun _ => rfl)
  | stop =>
      exact hFollows.map (f := (·.setStop _)) (h := id)
        (fun plan => { plan with stop? := some n })
        (fun _ => rfl) (fun _ => rfl)

/- The same of all bounds that one test sets. -/
theorem assign_follows
    {r : Range}
    (hFollows : r.pipeline.Follows o)
    (n : Nat)
    (op : BinaryOp)
    (bounds : List Bound) :
    (r.assign (Variables.nameAfter n) op
      bounds).1.pipeline.Follows o := by
  induction bounds generalizing r with
  | nil => exact hFollows
  | cons bound bounds ih =>
      exact ih (set_follows hFollows n bound)

/- Bounds change neither the kinds nor the order of stages. -/
theorem restrict_follows
    {resolver : Resolver}
    {e : Expr}
    {r range : Range}
    {part : Part}
    {events : List Event}
    (hFits : Expr.Fits resolver e part)
    (hFollows : r.pipeline.Follows o)
    (hRestrict : r.restrict part = .ok (range, events)) :
    range.pipeline.Follows o := by
  unfold restrict at hRestrict
  cases hBound : part.timeBound? with
  | none => simp [hBound] at hRestrict
  | some found =>
      rcases found with ⟨bound, timeAtLeft, op⟩
      rcases hFits.bound _ _ _ hBound with ⟨n, rfl⟩
      simp only [hBound] at hRestrict
      rcases Step.except_bind_eq_ok.mp hRestrict with
        ⟨bounds, _, hRestrict⟩
      rcases Step.except_bind_eq_ok.mp hRestrict with
        ⟨assignment, hText, hRestrict⟩
      cases hText
      have hFollows := assign_follows hFollows n op bounds
      rw [Except.ok.inj hRestrict] at hFollows
      exact hFollows

end Range

namespace Draft

variable {resolver : Resolver}
variable {o : Outline}

/- Routing keeps the outline. -/
theorem Routes.follows
    {parts : List Part}
    {conditions : List String}
    {d d' : Draft}
    (hParts : ∀ p ∈ parts, ∃ e, Expr.Fits resolver e p)
    (hRoutes : Routes parts d conditions d')
    (hFollows : d.Follows o) :
    d'.Follows o := by
  induction hRoutes with
  | nil d => exact hFollows
  | bound hRange hRest ih =>
      rw [List.forall_mem_cons] at hParts
      rcases hParts.1 with ⟨e, hFits⟩
      exact ih hParts.2
        (Range.restrict_follows hFits hFollows hRange)
  | blank hRest ih =>
      rw [List.forall_mem_cons] at hParts
      exact ih hParts.2 hFollows
  | condition hCondition hText hRest ih =>
      rw [List.forall_mem_cons] at hParts
      exact ih hParts.2 hFollows

/- Conditions on the way to the filter are closed. -/
theorem Routes.closed
    {parts : List Part}
    {conditions : List String}
    {d d' : Draft}
    (hParts : ∀ p ∈ parts, p.IsClosed)
    (hRoutes : Routes parts d conditions d') :
    ∀ s ∈ conditions, Scan.Closed s.toList := by
  induction hRoutes with
  | nil d => simp
  | bound _ _ ih =>
      rw [List.forall_mem_cons] at hParts
      exact ih hParts.2
  | blank _ ih =>
      rw [List.forall_mem_cons] at hParts
      exact ih hParts.2
  | condition _ hText _ ih =>
      rw [List.forall_mem_cons] at hParts ⊢
      exact ⟨hParts.1 _ hText, ih hParts.2⟩

/- There are conditions exactly if some part is one. -/
theorem Routes.isEmpty_eq
    {parts : List Part}
    {conditions : List String}
    {d d' : Draft}
    (hRoutes : Routes parts d conditions d') :
    conditions.isEmpty = !parts.any (·.isCondition) := by
  induction hRoutes with
  | nil d => rfl
  | bound _ _ ih => simpa [Part.isCondition] using ih
  | blank _ ih => simpa [Part.isCondition] using ih
  | condition hCondition _ _ _ => simp [hCondition]

/- Closed conditions become one condition of the plan. -/
theorem addConditions_follows
    {d : Draft}
    {conditions : List String}
    (hClosed : ∀ s ∈ conditions, Scan.Closed s.toList)
    (hFollows : d.Follows o) :
    (d.addConditions conditions).Follows
      { o with filtered := o.filtered || !conditions.isEmpty } := by
  cases conditions with
  | nil => simpa [addConditions] using hFollows
  | cons first others =>
      have hJoined := Scan.closed_join
        (Scan.closed_of_isPlain
          (show " and ".toList.all Scan.isPlain = true from rfl))
        hClosed
      refine hFollows.map (f := (·.addFilter _))
        (h := fun o => { o with filtered := o.filtered || true })
        (fun plan => { plan with
          conditions := plan.conditions ++ [⟨_, hJoined⟩] })
        (fun plan => ?_) (fun plan => ?_)
      · simp [Pipeline.addFilter, Plan.pipeline]
      · simp [Plan.outline]

end Draft

/- Some conjunct becomes a condition if some is no bound. -/
theorem Expr.VisitsAll.any_isCondition
    {resolver : Resolver}
    {es : List Expr}
    {ps : List Part}
    {s u : Scope}
    (hVisits : VisitsAll resolver es s ps u) :
    ps.any (·.isCondition) =
      es.any fun e => !e.isBound resolver := by
  induction es generalizing s ps with
  | nil =>
      cases hVisits with
      | nil => rfl
  | cons e es ih =>
      cases hVisits with
      | cons hFirst hOthers =>
          simp only [List.any_cons, ih hOthers,
            hFirst.fits.condition]

namespace Drafting

open Draft TypedFlux.Expr

variable {resolver : Resolver}

/- A filter adds a stage if any conjunct is no bound. -/
theorem filter_follows
    {predicate : Expr}
    {a : Unit}
    {d d' : Draft}
    {o : Outline}
    (hFollows : d.Follows o)
    (hFilter : filter resolver predicate d = (.ok a, d')) :
    d'.Follows (o.addClause resolver (.filter predicate)) := by
  rcases filter_eq_ok.mp hFilter with
    ⟨parts, s, conditions, e, hVisits, hRoutes, rfl⟩
  have hFits : ∀ p ∈ parts, ∃ e, Fits resolver e p := by
    intro p hMem
    rcases hVisits.exists_visits hMem with ⟨e, _, _, _, hVisit⟩
    exact ⟨e, hVisit.fits⟩
  have hParts : ∀ p ∈ parts, p.IsClosed := by
    intro p hMem
    rcases hVisits.exists_visits hMem with ⟨e, _, _, _, hVisit⟩
    exact hVisit.isClosed
  -- bounds leave the outline alone, conditions add the filter
  have hRouted : e.Follows o := hRoutes.follows hFits hFollows
  have hAdded := addConditions_follows
    (hRoutes.closed hParts) hRouted
  rw [hRoutes.isEmpty_eq, Bool.not_not,
    hVisits.any_isCondition] at hAdded
  exact hAdded

/- A key adds a sort by its own column. -/
theorem orderBy_follows
    {key : SortKey}
    {a : Unit}
    {d d' : Draft}
    {o : Outline}
    (hFollows : d.Follows o)
    (hOrder : orderBy resolver key d = (.ok a, d')) :
    d'.Follows (o.addKey resolver key) := by
  rcases orderBy_eq_ok.mp hOrder with
    ⟨role, column, s, hVisits, rfl⟩
  have hColumn := hVisits.fits.column role column rfl
  refine hFollows.map (f := (·.addSort column _))
    (h := (·.addKey resolver key))
    (fun plan => { plan with
      sorts := plan.sorts ++ [(column, s.options.length)] })
    (fun plan => ?_) (fun plan => ?_)
  · simp [Pipeline.addSort, Plan.pipeline, Variables.nextName]
  · simp [Plan.outline, Outline.addKey, hColumn]

/- Every clause does as the outline says. -/
theorem clause_follows
    {c : BodyClause}
    {d d' : Draft}
    {o : Outline}
    (hFollows : d.Follows o)
    (hClause : clause resolver c d = (.ok PUnit.unit, d')) :
    d'.Follows (o.addClause resolver c) := by
  cases c with
  | filter predicate => exact filter_follows hFollows hClause
  | order keys =>
      have hStep : ∀ key d o d', Follows d o →
          orderBy resolver key d = (.ok PUnit.unit, d') →
            d'.Follows (o.addKey resolver key) :=
        fun _ _ _ _ => orderBy_follows
      exact Step.forM_follows hStep hFollows hClause

/- So does every operator. -/
theorem operator_follows
    {op : ResultOperator}
    {d d' : Draft}
    {o : Outline}
    (hFollows : d.Follows o)
    (hOperator : operator op d = (.ok PUnit.unit, d')) :
    d'.Follows (o.addOperator op) := by
  cases operates_iff.mp hOperator with
  | take =>
      refine hFollows.map (f := (·.setLimit _))
        (h := (·.addOperator _))
        (fun plan => { plan with
          limit? := some d.scope.options.length })
        (fun _ => rfl) (fun plan => ?_)
      simp [Plan.outline, Outline.addOperator]
  | skip =>
      refine hFollows.map (f := (·.setOffset _))
        (h := (·.addOperator _))
        (fun plan => { plan with
          offset? := some d.scope.options.length })
        (fun _ => rfl) (fun plan => ?_)
      simp [Plan.outline, Outline.addOperator]
  | takeLast =>
      refine hFollows.map (f := (·.setTail _))
        (h := (·.addOperator _))
        (fun plan => { plan with
          tail? := some d.scope.options.length })
        (fun _ => rfl) (fun plan => ?_)
      simp [Plan.outline, Outline.addOperator]
  | any => simpa [Outline.addOperator] using hFollows
  | count | longCount =>
      refine hFollows.map (f := (·.setReduction .count))
        (h := (·.addOperator _))
        (fun plan => { plan with reduction? := some .count })
        (fun _ => rfl) (fun plan => ?_)
      simp [Plan.outline, Outline.addOperator]

end Drafting

end TypedFlux

------------------------------------------------------------
-- The Stages of a Query
------------------------------------------------------------

namespace TypedFlux

namespace Draft

/- A new draft asks nothing of the rows. -/
theorem new_follows
    (bucket : String) :
    (Draft.new bucket).Follows {} :=
  ⟨⟨0, 1, none, none, none, none, [], [], none⟩, rfl, rfl⟩

/- And so does a whole query. -/
theorem ofQuery_follows
    {bucket : String}
    {resolver : Resolver}
    {q : Query}
    {d : Draft}
    (hDraft : Draft.ofQuery bucket resolver q = .ok d) :
    d.Follows (q.outline resolver) := by
  rcases ofQuery_eq_ok.mp hDraft with ⟨e, hBody, hOperators⟩
  have hClause : ∀ c d o d', Follows d o →
      Drafting.clause resolver c d = (.ok PUnit.unit, d') →
        d'.Follows (o.addClause resolver c) :=
    fun _ _ _ _ => Drafting.clause_follows
  have hOperator : ∀ op d o d', Follows d o →
      Drafting.operator op d = (.ok PUnit.unit, d') →
        d'.Follows (o.addOperator op) :=
    fun _ _ _ _ => Drafting.operator_follows
  have hAll := Step.forM_follows hOperator
    (Step.forM_follows hClause (new_follows bucket) hBody)
    hOperators
  rw [Outline.foldl_eq_outline] at hAll
  exact hAll

/-
  The text of a pipeline parts into the stages that the query
  asks for and into no others, whatever the columns, the keys
  and the bucket are called.
-/
theorem stages_script
    (bucket : String)
    (resolver : Resolver)
    (q : Query)
    (d : Draft)
    (hDraft : Draft.ofQuery bucket resolver q = .ok d) :
    ∃ stages : List Stage,
      Scan.stages d.script.query = stages.map Stage.text ∧
      stages.map Stage.kind = (q.outline resolver).kinds := by
  rcases ofQuery_follows hDraft with ⟨plan, hPlan, hOutline⟩
  refine ⟨plan.stages, ?_, ?_⟩
  · change Scan.stages d.pipeline.text = _
    rw [hPlan]
    exact plan.stages_text
  · rw [plan.kind_stages, hOutline]

/- Columns that would end a literal, a call and the stage. -/
def breakoutResolver : Resolver where
  role := fun name => if name = "at" then .timestamp else .field
  column := fun name => name ++ "\"]) |> drop(columns: [\"\\"

/- A query that names such columns wherever it can. -/
def breakoutQuery : Query where
  entity := "m"
  body := [
    .filter (.binary .andAlso
      (.binary .lessThan (.constant (.int 5)) (.member "at"))
      (.binary .orElse
        (.call (.member "v") "Contains" [.member "w"])
        (.binary .equal (.index "k" (.string "\n)\" |> "))
          (.member "at")))),
    .order [⟨.member "v", .descending⟩,
      ⟨.member "at", .ascending⟩]]
  operators := [.skip (.constant (.int 3)), .count]

theorem stages_script_breakoutQuery :
    ∃ d,
      Draft.ofQuery "b" breakoutResolver breakoutQuery =
        .ok d ∧
      ∃ stages : List Stage,
        Scan.stages d.script.query = stages.map Stage.text ∧
        stages.map Stage.kind =
          [.source, .range, .pivot, .filter,
            .sort "v\"]) |> drop(columns: [\"\\",
            .sort "_time", .limit, .runningCount, .lastRow,
            .keepCount] := by
  rcases (⟨_, rfl⟩ : ∃ d, Draft.ofQuery "b" breakoutResolver
    breakoutQuery = .ok d) with ⟨d, hDraft⟩
  exact ⟨d, hDraft,
    stages_script "b" breakoutResolver breakoutQuery d hDraft⟩

end Draft

end TypedFlux
