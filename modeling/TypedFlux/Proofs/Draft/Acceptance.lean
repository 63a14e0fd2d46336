import TypedFlux.Proofs.Draft.Failures
import TypedFlux.Proofs.Draft.Rendering

/-
  The queries that have a script.

  Which queries can be drafted is said without drafting them.
  Each step of a draft succeeds exactly on what is said, and so
  does a whole query; where it fails, the error tells why.

  Key definitions include:
    * `Expr.Expressible`
    * `Expr.isTimeInequality`
    * `ResultOperator.Supported`
    * `Query.Translatable`

  Key theorems include:
    * `Drafting.filter_refused`
    * `Drafting.clauses_ok_iff`
    * `Drafting.operators_ok_iff`
    * `Draft.ofQuery_ok_iff`
-/

------------------------------------------------------------
-- Translatable Queries
------------------------------------------------------------

namespace TypedFlux

/- The two forms of conjunction and of disjunction. -/
def BinaryOp.isConnective : BinaryOp → Bool
  | .andAlso | .and | .orElse | .or => true
  | _ => false

namespace Expr

/- What a script can express. -/
inductive Expressible : Expr → Prop where
  | constant
      (value : Value) :
      Expressible (.constant value)
  | member
      (name : String) :
      Expressible (.member name)
  | index
      (name : String)
      (key : Value) :
      Expressible (.index name key)
  | convert
      {operand : Expr} :
      Expressible operand →
        Expressible (.unary .convert operand)
  | binary
      {op : BinaryOp}
      {left right : Expr} :
      (op.isComparison || op.isConnective) = true →
        Expressible left → Expressible right →
          Expressible (.binary op left right)
  | call
      {receiver : Expr}
      {method : String}
      {args : List Expr}
      {function : StringFunction} :
      StringFunction.ofMethod? method = some function →
        function.parameters.length = args.length + 1 →
        Expressible receiver → (∀ arg ∈ args, Expressible arg) →
          Expressible (.call receiver method args)

/-
  Whether a conjunct says that the time of a row is not a
  constant.  No range can say so.
-/
def isTimeInequality (resolver : Resolver) : Expr → Bool
  | .binary .notEqual left right =>
      left.isTime resolver
          && (Drafting.constant? right).isSome
        || (Drafting.constant? left).isSome
          && right.isTime resolver
  | .unary .convert operand => operand.isTimeInequality resolver
  | _ => false

end Expr

/- Whether a clause can be taken up. -/
def BodyClause.Translatable
    (resolver : Resolver) : BodyClause → Prop
  | .filter predicate =>
      predicate.Expressible ∧
        ∀ c ∈ predicate.conjuncts,
          c.isTimeInequality resolver = false
  | .order keys =>
      ∀ key ∈ keys,
        key.expr.Expressible ∧ key.expr.member?.isSome = true

/- Whether a value is a number of rows. -/
def Value.IsCount : Value → Prop
  | .int n => 0 ≤ n.toInt
  | .uint _ => True
  | _ => False

/- Whether an operator can be taken up at all. -/
def ResultOperator.Supported : ResultOperator → Prop
  | .take n | .skip n | .takeLast n =>
      ∃ value, Drafting.constant? n = some value ∧ value.IsCount
  | .any | .count | .longCount => True
  | .first | .last | .single | .sum | .min | .max | .average
  | .distinct => False

/-
  Whether a query can be drafted.  Rows are taken from the front
  only before they are taken from the end.
-/
structure Query.Translatable
    (resolver : Resolver)
    (q : Query) : Prop where
  clauses : ∀ c ∈ q.body, c.Translatable resolver
  operators : ∀ op ∈ q.operators, op.Supported
  frontFirst : q.operators.Pairwise fun earlier later =>
    earlier.isTail = true → later.isLimit = false

/- Whether an error names something that no script can say. -/
def QueryError.IsUnsupported (error : QueryError) : Prop :=
  ∃ construct kind, error = .unsupported construct kind

/- Whether some conjunct of a clause is no bound of a range. -/
def BodyClause.HasTimeInequality
    (resolver : Resolver) : BodyClause → Prop
  | .filter predicate =>
      ∃ c ∈ predicate.conjuncts,
        c.isTimeInequality resolver = true
  | .order _ => False

/- Whether an error tells why a clause was not taken up. -/
def BodyClause.Explains
    (resolver : Resolver)
    (c : BodyClause)
    (error : QueryError) : Prop :=
  error.IsUnsupported ∨
    error = .timeComparison .notEqual ∧
      c.HasTimeInequality resolver

end TypedFlux

------------------------------------------------------------
-- Expressions
------------------------------------------------------------

namespace TypedFlux

/-
  Comparisons and connectives have a token, arithmetic has
  none.
-/
theorem BinaryOp.token?_ne_none
    (op : BinaryOp) :
    op.token? ≠ none ↔
      (op.isComparison || op.isConnective) = true := by
  cases op <;> decide

namespace Expr

variable {resolver : Resolver}
variable {error : QueryError}
variable {cs : List Constant}

/- A method is known with this number of arguments. -/
theorem function?_eq_some
    {method : String}
    {args : List Expr}
    {function : StringFunction} :
    function? method args = some function ↔
      StringFunction.ofMethod? method = some function ∧
        function.parameters.length = args.length + 1 := by
  unfold function?
  cases StringFunction.ofMethod? method with
  | none => simp
  | some found =>
      by_cases hLength :
          found.parameters.length = args.length + 1
      · simp [hLength]
        intro hSame
        rw [← hSame]
        exact hLength
      · simp [hLength]
        intro hSame
        rw [← hSame]
        exact hLength

/- A list is expressible if each of its expressions is. -/
theorem VisitsAll.expressible_of
    {es : List Expr}
    {ps : List Part}
    {s u : Scope}
    (hEach : ∀ e ∈ es, ∀ p s t,
      Visits resolver e s p t → e.Expressible)
    (hVisits : VisitsAll resolver es s ps u) :
    ∀ e ∈ es, e.Expressible := by
  induction es generalizing s ps with
  | nil => simp
  | cons e es ih =>
      rw [List.forall_mem_cons] at hEach ⊢
      cases hVisits with
      | cons hFirst hOthers =>
          exact ⟨hEach.1 _ _ _ hFirst, ih hEach.2 hOthers⟩

/- What was walked over is expressible. -/
theorem Visits.expressible
    {e : Expr}
    {p : Part}
    {s u : Scope}
    (hVisits : Visits resolver e s p u) :
    e.Expressible := by
  induction e generalizing s p u with
  | constant value => exact .constant value
  | member name => exact .member name
  | index name key => exact .index name key
  | binary op left right ihLeft ihRight =>
      cases hVisits with
      | comparison hComparison hLeft hRight =>
          refine .binary ?_ (ihLeft hLeft) (ihRight hRight)
          rw [hComparison, Bool.true_or]
      | connective _ hToken hLeft hRight =>
          exact .binary (op.token?_ne_none.mp hToken)
            (ihLeft hLeft) (ihRight hRight)
  | unary op operand ih =>
      cases hVisits with
      | convert hOperand => exact .convert (ih hOperand)
  | call receiver method args ihReceiver ihArgs =>
      cases hVisits with
      | call hFunction hReceiver hArgs =>
          rcases function?_eq_some.mp hFunction with
            ⟨hMethod, hLength⟩
          exact .call hMethod hLength (ihReceiver hReceiver)
            (hArgs.expressible_of fun arg hMem p s t =>
              ihArgs arg hMem)
  | parameter name => cases hVisits
  | conditional test ifTrue ifFalse _ _ _ => cases hVisits

/- What is refused by its form alone is not expressible. -/
theorem not_expressible_of_refusal?
    {e : Expr}
    (hRefused : e.refusal? = some error) :
    ¬ e.Expressible := by
  intro hExpressible
  cases hExpressible with
  | constant | member | index | convert => cases hRefused
  | @binary op left right hOp =>
      rw [← op.token?_ne_none] at hOp
      simp [refusal?, hOp] at hRefused
  | call hMethod hLength =>
      have hFunction :=
        function?_eq_some.mpr ⟨hMethod, hLength⟩
      simp [refusal?, hFunction] at hRefused

/- A walk fails only over what is not expressible. -/
theorem Fails.not_expressible
    {e : Expr}
    {s t : Scope}
    (hFails : Fails resolver e s error t) :
    ¬ e.Expressible := by
  induction hFails with
  | refused s hRefused =>
      exact not_expressible_of_refusal? hRefused
  | convert _ ih =>
      intro hExpressible
      cases hExpressible with
      | convert hOperand => exact ih hOperand
  | left _ ih =>
      intro hExpressible
      cases hExpressible with
      | binary _ hLeft _ => exact ih hLeft
  | right _ _ ih =>
      intro hExpressible
      cases hExpressible with
      | binary _ _ hRight => exact ih hRight
  | receiver _ ih =>
      intro hExpressible
      cases hExpressible with
      | call _ _ hReceiver _ => exact ih hReceiver
  | argument _ _ _ ih =>
      intro hExpressible
      cases hExpressible with
      | call _ _ _ hArgs =>
          exact ih (hArgs _ (by simp))

/- Such a refusal says that it is unsupported. -/
theorem error_of_refusal?
    {e : Expr}
    (hRefused : e.refusal? = some error) :
    error.IsUnsupported := by
  unfold refusal? at hRefused
  split at hRefused
  · cases hRefused
  · cases hRefused
  · cases hRefused
  · cases hRefused
  · split at hRefused
    · cases hRefused
      exact ⟨_, _, rfl⟩
    · cases hRefused
  · split at hRefused
    · cases hRefused
      exact ⟨_, _, rfl⟩
    · cases hRefused
  · cases hRefused
    exact ⟨_, _, rfl⟩

/- A walk fails for no other reason. -/
theorem Fails.isUnsupported
    {e : Expr}
    {s t : Scope}
    (hFails : Fails resolver e s error t) :
    error.IsUnsupported := by
  induction hFails with
  | refused s hRefused => exact error_of_refusal? hRefused
  | convert _ ih | left _ ih | right _ _ ih | receiver _ ih
  | argument _ _ _ ih => exact ih

/- A predicate is expressible if all its conjuncts are. -/
theorem expressible_of_conjuncts
    {e : Expr}
    (hAll : ∀ c ∈ e.conjuncts, c.Expressible) :
    e.Expressible := by
  induction e with
  | binary op left right ihLeft ihRight =>
      unfold conjuncts at hAll
      split at hAll
      · next hConjunction =>
          have hOp : (op.isComparison || op.isConnective) =
              true := by
            cases op with
            | andAlso | and => rfl
            | _ => cases hConjunction
          rw [List.forall_mem_append] at hAll
          exact .binary hOp (ihLeft hAll.1) (ihRight hAll.2)
      · exact hAll _ List.mem_cons_self
  | unary op operand ih =>
      cases op with
      | convert => exact .convert (ih hAll)
      | not => exact hAll _ List.mem_cons_self
      | negate => exact hAll _ List.mem_cons_self
  | constant | member | index | call | parameter
  | conditional => exact hAll _ List.mem_cons_self

/- The conjuncts of an expressible predicate are expressible. -/
theorem Expressible.conjunct
    {e c : Expr}
    (hExpressible : e.Expressible)
    (hMem : c ∈ e.conjuncts) :
    c.Expressible := by
  induction e with
  | binary op left right ihLeft ihRight =>
      unfold conjuncts at hMem
      split at hMem
      · cases hExpressible with
        | binary _ hLeft hRight =>
            rcases List.mem_append.mp hMem with hMem | hMem
            · exact ihLeft hLeft hMem
            · exact ihRight hRight hMem
      · rw [List.mem_singleton.mp hMem]
        exact hExpressible
  | unary op operand ih =>
      cases hExpressible with
      | convert hOperand => exact ih hOperand hMem
  | constant | member | index | call | parameter
  | conditional =>
      rw [List.mem_singleton.mp hMem]
      exact hExpressible

end Expr

end TypedFlux

------------------------------------------------------------
-- Predicates
------------------------------------------------------------

namespace TypedFlux

/- The one comparison that no range can make. -/
theorem BinaryOp.bounds_eq_error
    {op : BinaryOp}
    {timeAtLeft : Bool}
    {error : QueryError}
    (hComparison : op.isComparison = true)
    (hError : op.bounds timeAtLeft = .error error) :
    op = .notEqual ∧ error = .timeComparison .notEqual := by
  cases op with
  | notEqual =>
      cases hError
      exact ⟨rfl, rfl⟩
  | equal | lessThan | lessThanOrEqual | greaterThan
  | greaterThanOrEqual => cases hError
  | andAlso | and | orElse | or | add | subtract | multiply
  | divide | modulo => cases hComparison

namespace Expr

variable {resolver : Resolver}
variable {error : QueryError}
variable {cs : List Constant}

/- A bound has the operator of its comparison. -/
theorem timeBound?_binary
    {op op' : BinaryOp}
    {left right : Expr}
    {timeAtLeft : Bool}
    (hBound : (Expr.binary op left right).timeBound? resolver =
      some (timeAtLeft, op')) :
    op' = op ∧ op.isComparison = true := by
  unfold timeBound? at hBound
  split at hBound
  · next hFirst =>
      cases hBound
      simp only [Bool.and_eq_true] at hFirst
      exact ⟨rfl, hFirst.1.1⟩
  · split at hBound
    · next hSecond =>
        cases hBound
        simp only [Bool.and_eq_true] at hSecond
        exact ⟨rfl, hSecond.1.1⟩
    · cases hBound

/- Conversions around it change nothing. -/
theorem isComparison_of_timeBound?
    {e : Expr}
    {timeAtLeft : Bool}
    {op : BinaryOp}
    (hBound : e.timeBound? resolver = some (timeAtLeft, op)) :
    op.isComparison = true := by
  induction e with
  | binary op' left right _ _ =>
      rcases timeBound?_binary hBound with ⟨rfl, hComparison⟩
      exact hComparison
  | unary op' operand ih =>
      cases op' with
      | convert => exact ih hBound
      | not => cases hBound
      | negate => cases hBound
  | constant | member | index | call | parameter
  | conditional => cases hBound

/- An inequality of the time is a bound that no range has. -/
theorem isTimeInequality_iff
    {e : Expr} :
    e.isTimeInequality resolver = true ↔
      ∃ timeAtLeft,
        e.timeBound? resolver = some (timeAtLeft, .notEqual) := by
  induction e with
  | binary op left right _ _ =>
      by_cases hOp : op = .notEqual
      · subst hOp
        cases hFirst : left.isTime resolver
            && (Drafting.constant? right).isSome with
        | true =>
            simp [isTimeInequality, timeBound?,
              BinaryOp.isComparison, hFirst]
        | false =>
            simp [isTimeInequality, timeBound?,
              BinaryOp.isComparison, hFirst]
      · have hNone : (Expr.binary op left right).isTimeInequality
            resolver = false := by
          cases op with
          | notEqual => exact absurd rfl hOp
          | _ => rfl
        constructor
        · intro hInequality
          rw [hNone] at hInequality
          cases hInequality
        · intro hBound
          rcases hBound with ⟨timeAtLeft, hBound⟩
          exact absurd (timeBound?_binary hBound).1.symm hOp
  | unary op operand ih =>
      cases op with
      | convert => exact ih
      | not => simp [isTimeInequality, timeBound?]
      | negate => simp [isTimeInequality, timeBound?]
  | constant | member | index | call | parameter
  | conditional => simp [isTimeInequality, timeBound?]

/- A walk in some scope finds this part for an expression. -/
def Finds
    (resolver : Resolver)
    (e : Expr)
    (p : Part) : Prop :=
  ∃ s t cs, s.Numbers cs ∧ Visits resolver e s p t

/-
  Each expression of a list becomes a part in the list that is
  found, and no part comes from elsewhere.
-/
theorem VisitsAll.finds
    {es : List Expr}
    {ps : List Part}
    {s u : Scope}
    (hNumbers : s.Numbers cs)
    (hVisits : VisitsAll resolver es s ps u) :
    (∀ e ∈ es, ∃ p ∈ ps, Finds resolver e p) ∧
      ∀ p ∈ ps, ∃ e ∈ es, Finds resolver e p := by
  induction es generalizing s ps cs with
  | nil =>
      cases hVisits with
      | nil => simp
  | cons e es ih =>
      cases hVisits with
      | @cons _ _ _ _ _ p ps hFirst hOthers =>
          rcases ih (hFirst.numbers hNumbers) hOthers with
            ⟨hParts, hExprs⟩
          have hFinds : Finds resolver e p :=
            ⟨s, _, cs, hNumbers, hFirst⟩
          simp only [List.forall_mem_cons]
          refine ⟨⟨⟨p, List.mem_cons_self, hFinds⟩, ?_⟩,
            ⟨e, List.mem_cons_self, hFinds⟩, ?_⟩
          · intro f hMem
            rcases hParts f hMem with ⟨q, hPart, hFinds⟩
            exact ⟨q, List.mem_cons_of_mem _ hPart, hFinds⟩
          · intro q hMem
            rcases hExprs q hMem with ⟨f, hExpr, hFinds⟩
            exact ⟨f, List.mem_cons_of_mem _ hExpr, hFinds⟩

end Expr

namespace Draft

/- Every bound that was routed narrowed the range. -/
theorem Routes.restricts
    {parts : List Part}
    {conditions : List String}
    {d d' : Draft}
    (hRoutes : Routes parts d conditions d')
    {part : Part}
    (hMem : part ∈ parts)
    (hBound : part.timeBound? ≠ none) :
    ∃ (r : Range) (narrowed : Range × List Event),
      r.restrict part = .ok narrowed := by
  induction hRoutes with
  | nil => exact absurd hMem List.not_mem_nil
  | bound hRange _ ih =>
      rcases List.mem_cons.mp hMem with rfl | hMem
      · exact ⟨_, _, hRange⟩
      · exact ih hMem
  | blank _ ih =>
      rcases List.mem_cons.mp hMem with rfl | hMem
      · exact absurd rfl hBound
      · exact ih hMem
  | condition hCondition _ _ ih =>
      rcases List.mem_cons.mp hMem with rfl | hMem
      · cases part with
        | timeBound => cases hCondition
        | literal | column | binary | call | indexed | blank =>
            exact absurd rfl hBound
      · exact ih hMem

end Draft

namespace Drafting

open Draft TypedFlux.Expr

variable {resolver : Resolver}
variable {error : QueryError}
variable {cs : List Constant}
variable {d d' : Draft}

/- A predicate that was taken up is translatable. -/
theorem translatable_of_filter
    {predicate : Expr}
    {a : Unit}
    (hNumbers : d.scope.Numbers cs)
    (hFilter : filter resolver predicate d = (.ok a, d')) :
    (BodyClause.filter predicate).Translatable resolver := by
  rcases filter_eq_ok.mp hFilter with
    ⟨parts, s, conditions, e, hVisits, hRoutes, rfl⟩
  constructor
  · apply expressible_of_conjuncts
    exact hVisits.expressible_of
      fun _ _ _ _ _ hVisit => hVisit.expressible
  · intro c hMem
    rcases (hVisits.finds hNumbers).1 c hMem with
      ⟨p, hPart, s', t, cs', hNumbers', hVisit⟩
    rw [Bool.eq_false_iff]
    intro hInequality
    rcases isTimeInequality_iff.mp hInequality with
      ⟨timeAtLeft, hBound⟩
    have hPartBound := hVisit.timeBound?_eq hNumbers'
    rw [hBound] at hPartBound
    rcases hRoutes.restricts hPart
      (by rw [hPartBound]; simp) with ⟨r, narrowed, hRange⟩
    rw [r.restrict_literal hPartBound] at hRange
    cases hRange

/- What stops a predicate is an inequality of the time. -/
theorem timeInequality_of_stops
    {es : List Expr}
    {parts : List Part}
    {s u : Scope}
    (hNumbers : s.Numbers cs)
    (hVisits : VisitsAll resolver es s parts u)
    (hStops : Stops parts d error d') :
    error = .timeComparison .notEqual ∧
      ∃ c ∈ es, c.isTimeInequality resolver = true := by
  rcases hStops with
    ⟨before, part, after, conditions, rfl, _, hStop⟩
  rcases (hVisits.finds hNumbers).2 part (by simp) with
    ⟨c, hMem, s', t, cs', hNumbers', hVisit⟩
  rcases hStop with ⟨_, hText⟩ | ⟨hBound, hRange⟩
  · rw [hVisit.hasText hNumbers'] at hText
    cases hText
  · -- a part that is no condition bounds the range
    rw [hVisit.fits.condition, Bool.not_eq_false',
      isBound_eq_isSome] at hBound
    rcases Option.isSome_iff_exists.mp hBound with
      ⟨⟨timeAtLeft, op⟩, hBound⟩
    have hPartBound := hVisit.timeBound?_eq hNumbers'
    rw [hBound] at hPartBound
    rw [d'.range.restrict_literal hPartBound] at hRange
    cases hBounds : op.bounds timeAtLeft with
    | ok bounds =>
        rw [hBounds] at hRange
        cases hRange
    | error e =>
        rw [hBounds] at hRange
        cases hRange
        rcases BinaryOp.bounds_eq_error
          (isComparison_of_timeBound? hBound) hBounds with
          ⟨rfl, rfl⟩
        exact ⟨rfl, c, hMem,
          isTimeInequality_iff.mpr ⟨timeAtLeft, hBound⟩⟩

/- A predicate that fails is not translatable. -/
theorem filter_refused
    {predicate : Expr}
    (hNumbers : d.scope.Numbers cs)
    (hFilter : filter resolver predicate d =
      (.error error, d')) :
    ¬ (BodyClause.filter predicate).Translatable resolver ∧
      (BodyClause.filter predicate).Explains resolver
        error := by
  rcases filter_eq_error hFilter with
    ⟨t, hFails, rfl⟩ | ⟨parts, s, hVisits, hStops⟩
  · rcases hFails with
      ⟨before, c, after, ps, u, hConjuncts, _, hFails⟩
    have hMem : c ∈ predicate.conjuncts := by
      rw [hConjuncts]
      simp
    refine ⟨?_, .inl hFails.isUnsupported⟩
    intro hTranslatable
    exact hFails.not_expressible
      (hTranslatable.1.conjunct hMem)
  · rcases timeInequality_of_stops hNumbers hVisits hStops with
      ⟨hError, c, hMem, hInequality⟩
    refine ⟨?_, .inr ⟨hError, c, hMem, hInequality⟩⟩
    intro hTranslatable
    rw [hTranslatable.2 c hMem] at hInequality
    cases hInequality

end Drafting

end TypedFlux

------------------------------------------------------------
-- Keys to Sort by
------------------------------------------------------------

namespace TypedFlux

namespace Drafting

open Draft TypedFlux.Expr

variable {resolver : Resolver}
variable {error : QueryError}
variable {d d' : Draft}

/- A key is accepted if it is a member. -/
theorem orderBy_accepted
    {key : SortKey}
    {a : Unit}
    (hOrder : orderBy resolver key d = (.ok a, d')) :
    key.expr.Expressible ∧ key.expr.member?.isSome = true := by
  rcases orderBy_eq_ok.mp hOrder with
    ⟨role, column, s, hVisits, _⟩
  rcases Option.map_eq_some_iff.mp hVisits.role?_eq.symm with
    ⟨name, hMember, _⟩
  rw [hMember]
  exact ⟨hVisits.expressible, rfl⟩

/- A key is refused for this reason only. -/
theorem orderBy_refused
    {key : SortKey}
    (hOrder : orderBy resolver key d = (.error error, d')) :
    ¬ (key.expr.Expressible ∧
        key.expr.member?.isSome = true) ∧
      error.IsUnsupported := by
  rcases orderBy_eq_error hOrder with
    ⟨t, hFails, _⟩ | ⟨p, s, hVisits, hColumn, rfl, _⟩
  · refine ⟨?_, hFails.isUnsupported⟩
    intro hAccepted
    exact hFails.not_expressible hAccepted.1
  · refine ⟨?_, _, _, rfl⟩
    intro hAccepted
    rcases Option.isSome_iff_exists.mp hAccepted.2 with
      ⟨name, hMember⟩
    have hRole := hVisits.role?_eq
    rw [hMember] at hRole
    cases p with
    | column role column =>
        exact hColumn role column rfl
    | literal | binary | call | indexed | timeBound
    | blank => cases hRole

end Drafting

end TypedFlux

------------------------------------------------------------
-- Clauses
------------------------------------------------------------

namespace TypedFlux

/-
  What clauses leave as it is: constants are numbered, and no
  rows are taken from the end.
-/
structure Draft.Open (d : Draft) : Prop where
  numbered : ∃ cs, d.scope.Numbers cs
  untailed : d.tailTaken = false

namespace Drafting

open Draft TypedFlux.Expr

variable {resolver : Resolver}
variable {error : QueryError}
variable {d d' : Draft}

/- No clause takes the tail of the rows. -/
theorem filter_open
    {predicate : Expr}
    {a : Unit}
    (hOpen : d.Open)
    (hFilter : filter resolver predicate d = (.ok a, d')) :
    d'.Open := by
  rcases hOpen.numbered with ⟨cs, hNumbers⟩
  refine ⟨⟨_, filter_numbers hNumbers hFilter⟩, ?_⟩
  rcases filter_eq_ok.mp hFilter with
    ⟨parts, s, conditions, e, _, hRoutes, rfl⟩
  rcases hRoutes.eq_narrow with ⟨events, hNarrow⟩
  have hRouted : e.tailTaken = false := by
    rw [hNarrow]
    exact hOpen.untailed
  cases conditions with
  | nil => exact hRouted
  | cons first others => exact hRouted

theorem orderBy_open
    {key : SortKey}
    {a : Unit}
    (hOpen : d.Open)
    (hOrder : orderBy resolver key d = (.ok a, d')) :
    d'.Open := by
  rcases hOpen.numbered with ⟨cs, hNumbers⟩
  refine ⟨⟨_, orderBy_numbers hNumbers hOrder⟩, ?_⟩
  rcases orderBy_eq_ok.mp hOrder with
    ⟨role, column, s, _, rfl⟩
  exact hOpen.untailed

/- So the draft stays open through the body. -/
theorem clause_open
    {c : BodyClause}
    (hOpen : d.Open)
    (hClause : clause resolver c d = (.ok PUnit.unit, d')) :
    d'.Open := by
  cases c with
  | filter predicate => exact filter_open hOpen hClause
  | order keys =>
      exact Step.forM_keeps_ok
        (fun _ _ _ hOpen hOrder => orderBy_open hOpen hOrder)
        hOpen hClause

/- An accepted clause can be translated. -/
theorem clause_accepted
    {c : BodyClause}
    (hOpen : d.Open)
    (hClause : clause resolver c d = (.ok PUnit.unit, d')) :
    c.Translatable resolver := by
  cases c with
  | filter predicate =>
      rcases hOpen.numbered with ⟨cs, hNumbers⟩
      exact translatable_of_filter hNumbers hClause
  | order keys =>
      exact (Step.forM_ok_iff (P := Draft.Open)
        (A := fun key => key.expr.Expressible ∧
          key.expr.member?.isSome = true)
        (f := orderBy resolver)
        (fun _ _ _ hOpen hOrder => orderBy_open hOpen hOrder)
        (fun _ _ _ _ hOrder => orderBy_accepted hOrder)
        (fun _ _ _ _ _ hOrder => (orderBy_refused hOrder).1)
        hOpen).mp ⟨d', hClause⟩

/- A refused one cannot, and the refusal says why. -/
theorem clause_refused
    {c : BodyClause}
    (hOpen : d.Open)
    (hClause : clause resolver c d = (.error error, d')) :
    ¬ c.Translatable resolver ∧ c.Explains resolver error := by
  cases c with
  | filter predicate =>
      rcases hOpen.numbered with ⟨cs, hNumbers⟩
      exact filter_refused hNumbers hClause
  | order keys =>
      rcases Step.forM_eq_error hClause with
        ⟨before, key, after, u, rfl, _, hOrder⟩
      rcases orderBy_refused hOrder with ⟨hRefused, hError⟩
      refine ⟨?_, .inl hError⟩
      intro hTranslatable
      exact hRefused (hTranslatable key (by simp))

/- Clauses are taken up exactly if all are translatable. -/
theorem clauses_ok_iff
    {body : List BodyClause}
    (hOpen : d.Open) :
    (∃ d', body.forM (clause resolver) d =
        (.ok PUnit.unit, d')) ↔
      ∀ c ∈ body, c.Translatable resolver :=
  Step.forM_ok_iff (P := Draft.Open)
    (A := fun c => c.Translatable resolver)
    (f := clause resolver)
    (fun _ _ _ hOpen hClause => clause_open hOpen hClause)
    (fun _ _ _ hOpen hClause => clause_accepted hOpen hClause)
    (fun _ _ _ _ hOpen hClause =>
      (clause_refused hOpen hClause).1) hOpen

theorem clauses_open
    {body : List BodyClause}
    (hOpen : d.Open)
    (hBody : body.forM (clause resolver) d =
      (.ok PUnit.unit, d')) :
    d'.Open :=
  Step.forM_keeps_ok
    (fun _ _ _ hOpen hClause => clause_open hOpen hClause)
    hOpen hBody

end Drafting

end TypedFlux

------------------------------------------------------------
-- Operators
------------------------------------------------------------

namespace TypedFlux

/- A number of rows is an integer and not negative. -/
theorem Value.isCount_iff
    (value : Value) :
    Drafting.isCount value = true ↔ value.IsCount := by
  cases value with
  | int n => simp [Drafting.isCount, IsCount]
  | uint n => simp [Drafting.isCount, IsCount]
  | _ => simp [Drafting.isCount, IsCount]

namespace Drafting

open Draft

variable {d d' : Draft}

/- An operator is taken up if it is supported and not too late. -/
theorem operator_ok_iff
    (op : ResultOperator) :
    (∃ d', operator op d = (.ok PUnit.unit, d')) ↔
      op.Supported ∧
        (d.tailTaken = true → op.isLimit = false) := by
  simp only [operates_iff]
  constructor
  · intro hOperates
    rcases hOperates with ⟨d', hOperates⟩
    cases hOperates with
    | take hTail hConstant hCount
    | skip hTail hConstant hCount =>
        rw [Value.isCount_iff] at hCount
        refine ⟨⟨_, hConstant, hCount⟩, ?_⟩
        intro hTaken
        rw [hTail] at hTaken
        cases hTaken
    | takeLast hConstant hCount =>
        rw [Value.isCount_iff] at hCount
        exact ⟨⟨_, hConstant, hCount⟩, fun _ => rfl⟩
    | any | count | longCount => exact ⟨trivial, fun _ => rfl⟩
  · intro hAccepted
    rcases hAccepted with ⟨hSupported, hFront⟩
    have hTail : op.isLimit = true → d.tailTaken = false := by
      intro hLimit
      rw [Bool.eq_false_iff]
      intro hTaken
      rw [hFront hTaken] at hLimit
      cases hLimit
    cases op with
    | take n =>
        rcases hSupported with ⟨value, hConstant, hCount⟩
        exact ⟨_, .take (hTail rfl) hConstant
          (value.isCount_iff.mpr hCount)⟩
    | skip n =>
        rcases hSupported with ⟨value, hConstant, hCount⟩
        exact ⟨_, .skip (hTail rfl) hConstant
          (value.isCount_iff.mpr hCount)⟩
    | takeLast n =>
        rcases hSupported with ⟨value, hConstant, hCount⟩
        exact ⟨_, .takeLast hConstant
          (value.isCount_iff.mpr hCount)⟩
    | any => exact ⟨_, .any d⟩
    | count => exact ⟨_, .count d⟩
    | longCount => exact ⟨_, .longCount d⟩
    | first | last | single | sum | min | max | average
    | distinct => exact absurd hSupported not_false

/- Only a tail takes the tail, and it stays taken. -/
theorem tailTaken_operator
    {op : ResultOperator}
    (hOperator : operator op d = (.ok PUnit.unit, d')) :
    d'.tailTaken = (d.tailTaken || op.isTail) := by
  cases operates_iff.mp hOperator with
  | take | skip | any | count | longCount =>
      exact (Bool.or_false _).symm
  | takeLast => exact (Bool.or_true _).symm

/-
  Operators are taken up exactly if each is supported and none
  counts from the front behind one that takes from the end.
-/
theorem operators_ok_iff
    (ops : List ResultOperator) :
    (∃ d', ops.forM operator d = (.ok PUnit.unit, d')) ↔
      (∀ op ∈ ops, op.Supported) ∧
        ops.Pairwise (fun earlier later =>
          earlier.isTail = true → later.isLimit = false) ∧
        (d.tailTaken = true →
          ∀ op ∈ ops, op.isLimit = false) := by
  induction ops generalizing d with
  | nil =>
      constructor
      · intro _
        exact ⟨by simp, .nil, by simp⟩
      · intro _
        exact ⟨d, Step.forM_nil_eq_ok.mpr rfl⟩
  | cons op ops ih =>
      simp only [List.forall_mem_cons, List.pairwise_cons]
      constructor
      · intro hAll
        rcases hAll with ⟨d', hAll⟩
        rcases Step.forM_cons_eq_ok.mp hAll with
          ⟨u, hFirst, hRest⟩
        rcases (operator_ok_iff op).mp ⟨u, hFirst⟩ with
          ⟨hSupported, hFront⟩
        rcases ih.mp ⟨d', hRest⟩ with
          ⟨hOthers, hPairs, hLater⟩
        rw [tailTaken_operator hFirst] at hLater
        refine ⟨⟨hSupported, hOthers⟩, ⟨?_, hPairs⟩, ?_⟩
        · intro later hMem hTail
          rw [hTail, Bool.or_true] at hLater
          exact hLater rfl later hMem
        · intro hTaken
          rw [hTaken, Bool.true_or] at hLater
          exact ⟨hFront hTaken, hLater rfl⟩
      · intro hAccepted
        rcases hAccepted with
          ⟨⟨hSupported, hOthers⟩, ⟨hOwn, hPairs⟩, hLater⟩
        rcases (operator_ok_iff op).mpr
          ⟨hSupported, fun hTaken => (hLater hTaken).1⟩ with
          ⟨u, hFirst⟩
        have hRest : u.tailTaken = true →
            ∀ op ∈ ops, op.isLimit = false := by
          rw [tailTaken_operator hFirst, Bool.or_eq_true]
          intro hTaken later hMem
          rcases hTaken with hTaken | hTail
          · exact (hLater hTaken).2 later hMem
          · exact hOwn later hMem hTail
        rcases ih.mpr ⟨hOthers, hPairs, hRest⟩ with
          ⟨d', hRest⟩
        exact ⟨d', Step.forM_cons_eq_ok.mpr ⟨u, hFirst, hRest⟩⟩

end Drafting

end TypedFlux

------------------------------------------------------------
-- Whole Queries
------------------------------------------------------------

namespace TypedFlux

namespace Draft

theorem new_open
    (bucket : String) :
    (Draft.new bucket).Open :=
  ⟨⟨_, new_numbers bucket⟩, rfl⟩

/- A query fails at a clause or, behind all clauses, later. -/
theorem ofQuery_eq_error
    {bucket : String}
    {resolver : Resolver}
    {q : Query}
    {error : QueryError}
    (hError : Draft.ofQuery bucket resolver q = .error error) :
    (∃ t, q.body.forM (Drafting.clause resolver)
        (Draft.new bucket) = (.error error, t)) ∨
      ∃ e t, q.operators.forM Drafting.operator e =
        (.error error, t) := by
  unfold Draft.ofQuery Draft.addQuery at hError
  rcases hRun : Drafting.query resolver q (Draft.new bucket)
    with ⟨e | ⟨⟩, d⟩
  · rw [hRun] at hError
    cases hError
    rcases Step.bind_eq_error.mp hRun with
      hBody | ⟨_, e, _, hOperators⟩
    · exact .inl ⟨d, hBody⟩
    · exact .inr ⟨e, d, hOperators⟩
  · rw [hRun] at hError
    cases hError

/-
  A query can be drafted exactly if it is translatable.  If not,
  something in it is unsupported or a time is compared in a way
  that no range can express.
-/
theorem ofQuery_ok_iff
    (bucket : String)
    (resolver : Resolver)
    (q : Query) :
    ((∃ d, Draft.ofQuery bucket resolver q = .ok d) ↔
        q.Translatable resolver) ∧
      ∀ error,
        Draft.ofQuery bucket resolver q = .error error →
          (∃ construct kind,
            error = .unsupported construct kind) ∨
          error = .timeComparison .notEqual ∧
            ∃ predicate, .filter predicate ∈ q.body ∧
              ∃ c ∈ predicate.conjuncts,
                c.isTimeInequality resolver = true := by
  have hOpen := new_open bucket
  constructor
  · constructor
    · intro hDraft
      rcases hDraft with ⟨d, hDraft⟩
      rcases ofQuery_eq_ok.mp hDraft with ⟨e, hBody, hOperators⟩
      rcases (Drafting.operators_ok_iff _).mp
        ⟨d, hOperators⟩ with ⟨hSupported, hFront, _⟩
      exact ⟨(Drafting.clauses_ok_iff hOpen).mp ⟨e, hBody⟩,
        hSupported, hFront⟩
    · intro hTranslatable
      rcases (Drafting.clauses_ok_iff hOpen).mpr
        hTranslatable.clauses with ⟨e, hBody⟩
      have hFirst : e.tailTaken = true →
          ∀ op ∈ q.operators, op.isLimit = false := by
        rw [(Drafting.clauses_open hOpen hBody).untailed]
        intro hTaken
        cases hTaken
      rcases (Drafting.operators_ok_iff _).mpr
        ⟨hTranslatable.operators, hTranslatable.frontFirst,
          hFirst⟩ with ⟨d, hOperators⟩
      exact ⟨d, ofQuery_eq_ok.mpr ⟨e, hBody, hOperators⟩⟩
  · intro error hError
    rcases ofQuery_eq_error hError with
      ⟨t, hBody⟩ | ⟨e, t, hOperators⟩
    · rcases Step.forM_eq_error hBody with
        ⟨before, c, after, u, hSplit, hBefore, hClause⟩
      have hOpen := Drafting.clauses_open hOpen hBefore
      rcases (Drafting.clause_refused hOpen hClause).2 with
        hUnsupported | ⟨hTime, hInequality⟩
      · exact .inl hUnsupported
      · cases c with
        | filter predicate =>
            refine .inr ⟨hTime, predicate, ?_, hInequality⟩
            rw [hSplit]
            simp
        | order keys => exact absurd hInequality not_false
    · rcases Step.forM_eq_error hOperators with
        ⟨before, op, after, u, _, _, hOperator⟩
      rw [(Drafting.operator_eq_error hOperator).1]
      exact .inl ⟨_, _, rfl⟩

/-
  The first inequality is below a disjunction and stays in the
  filter.  The second is a conjunct itself.
-/
def unequalQuery : Query where
  entity := "device"
  body := [
    .filter (.unary .convert (.binary .and
      (.binary .or
        (.binary .notEqual (.member "at") (.constant (.int 1)))
        (.binary .equal (.member "site") (.constant (.int 2))))
      (.unary .convert (.binary .notEqual (.constant (.int 3))
        (.unary .convert (.member "at"))))))]
  operators := []

/- The time must not be unequal to a constant. -/
theorem ofQuery_ok_iff_unequalQuery :
    Draft.ofQuery "b" deviceResolver unequalQuery =
        .error (.timeComparison .notEqual) ∧
      ¬ unequalQuery.Translatable deviceResolver ∧
      ∃ predicate, .filter predicate ∈ unequalQuery.body ∧
        ∃ c ∈ predicate.conjuncts,
          c.isTimeInequality deviceResolver = true := by
  have hError : Draft.ofQuery "b" deviceResolver unequalQuery =
      .error (.timeComparison .notEqual) := rfl
  have hIff := ofQuery_ok_iff "b" deviceResolver unequalQuery
  refine ⟨hError, ?_, ?_⟩
  · intro hTranslatable
    rcases hIff.1.mpr hTranslatable with ⟨d, hDraft⟩
    rw [hError] at hDraft
    cases hDraft
  · rcases hIff.2 _ hError with ⟨_, _, hOther⟩ | ⟨_, hTime⟩
    · cases hOther
    · exact hTime

end Draft

end TypedFlux
