import TypedFlux.Proofs.Draft.Clauses

/-
  Steps that fail.

  A step that fails leaves behind whatever it did before.  For
  every step of a draft it is said where it can fail, and what
  the draft is then.

  Key definitions include:
    * `Expr.refusal?`
    * `Expr.Fails`, `Expr.FailsAmong`
    * `Draft.Stops`

  Key theorems include:
    * `Step.forM_eq_error`, `Step.forM_keeps`
    * `Expr.fails_of_visit`
    * `Drafting.filter_eq_error`
    * `Drafting.orderBy_eq_error`
    * `Drafting.operator_eq_error`
-/

------------------------------------------------------------
-- Sequences of Steps
------------------------------------------------------------

namespace TypedFlux

namespace Step

variable {ε σ α β : Type}

/- A sequence fails at its first step or behind it. -/
theorem bind_eq_error
    {x : ExceptT ε (StateM σ) α}
    {f : α → ExceptT ε (StateM σ) β}
    {s t : σ}
    {e : ε} :
    (x >>= f) s = (.error e, t) ↔
      x s = (.error e, t) ∨
        ∃ a u, x s = (.ok a, u) ∧ f a u = (.error e, t) := by
  change (let (r, u) := x s; ExceptT.bindCont f r u) = _ ↔ _
  rcases hRun : x s with ⟨e' | a, u⟩
  · constructor
    · intro hStep
      left
      cases hStep
      rfl
    · intro hStep
      rcases hStep with hStep | ⟨a, v, hRun, _⟩
      · cases hStep
        rfl
      · cases hRun
  · constructor
    · intro hStep
      exact .inr ⟨a, u, rfl, hStep⟩
    · intro hStep
      rcases hStep with hStep | ⟨b, v, hRun, hStep⟩
      · cases hStep
      · cases hRun
        exact hStep

/- A step that succeeded hands its state to the next one. -/
theorem bind_of_ok
    {x : ExceptT ε (StateM σ) α}
    {f : α → ExceptT ε (StateM σ) β}
    {s u : σ}
    {a : α}
    (hRun : x s = (.ok a, u)) :
    (x >>= f) s = f a u := by
  change (let (r, u) := x s; ExceptT.bindCont f r u) = f a u
  rw [hRun]
  rfl

theorem pure_ne_error
    {a : α}
    {e : ε}
    {s t : σ} :
    (pure a : ExceptT ε (StateM σ) α) s ≠ (.error e, t) := by
  change (Except.ok a, s) ≠ (.error e, t)
  simp

/- A refusal leaves the state as it was. -/
theorem throw_eq_error
    {e e' : ε}
    {s t : σ} :
    (throw e : ExceptT ε (StateM σ) α) s = (.error e', t) ↔
      e = e' ∧ s = t := by
  change (Except.error e, s) = (.error e', t) ↔ _
  simp

theorem modify_ne_error
    {f : σ → σ}
    {e : ε}
    {s t : σ} :
    (modify f : ExceptT ε (StateM σ) PUnit) s ≠
      (.error e, t) := by
  change (Except.ok PUnit.unit, f s) ≠ (.error e, t)
  simp

/- A refusal of a pure step leaves the state alone, too. -/
theorem lift_eq_error
    {x : Except ε α}
    {e : ε}
    {s t : σ} :
    (liftM x : ExceptT ε (StateM σ) α) s = (.error e, t) ↔
      x = .error e ∧ s = t := by
  cases x with
  | error e' =>
      change (Except.error e', s) = (.error e, t) ↔ _
      simp
  | ok a =>
      change (Except.ok a, s) = (.error e, t) ↔ _
      simp

/- The first of two pure steps fails, or the second does. -/
theorem except_bind_eq_error
    {x : Except ε α}
    {f : α → Except ε β}
    {e : ε} :
    (x >>= f) = .error e ↔
      x = .error e ∨ ∃ a, x = .ok a ∧ f a = .error e := by
  cases x with
  | error e' =>
      change Except.error e' = .error e ↔ _
      simp
  | ok a =>
      change f a = .error e ↔ _
      simp

/- A list fails with the error of one of its items. -/
theorem mapM_eq_error
    {f : α → Except ε β}
    {xs : List α}
    {e : ε}
    (hError : xs.mapM f = .error e) :
    ∃ x ∈ xs, f x = .error e := by
  induction xs with
  | nil => cases hError
  | cons x xs ih =>
      rw [List.mapM_cons] at hError
      rcases except_bind_eq_error.mp hError with
        hFirst | ⟨b, _, hRest⟩
      · exact ⟨x, List.mem_cons_self, hFirst⟩
      · rcases except_bind_eq_error.mp hRest with
          hRest | ⟨bs, _, hPure⟩
        · rcases ih hRest with ⟨y, hMem, hLater⟩
          exact ⟨y, .tail _ hMem, hLater⟩
        · cases hPure

/- A list of steps fails at one of them. -/
theorem forM_eq_error
    {f : α → ExceptT ε (StateM σ) PUnit}
    {xs : List α}
    {e : ε}
    {s t : σ}
    (hError : xs.forM f s = (.error e, t)) :
    ∃ before x after u,
      xs = before ++ x :: after ∧
      before.forM f s = (.ok PUnit.unit, u) ∧
      f x u = (.error e, t) := by
  induction xs generalizing s with
  | nil => exact absurd hError pure_ne_error
  | cons x xs ih =>
      rcases bind_eq_error.mp hError with
        hFirst | ⟨a, v, hFirst, hRest⟩
      · exact ⟨[], x, xs, s, rfl, forM_nil_eq_ok.mpr rfl,
          hFirst⟩
      · rcases ih hRest with
          ⟨before, y, after, u, rfl, hBefore, hStep⟩
        refine ⟨x :: before, y, after, u, rfl, ?_, hStep⟩
        exact forM_cons_eq_ok.mpr ⟨v, hFirst, hBefore⟩

/- What every step that succeeds keeps. -/
theorem forM_keeps_ok
    {P : σ → Prop}
    {f : α → ExceptT ε (StateM σ) PUnit}
    (hStep : ∀ x s t, P s → f x s = (.ok PUnit.unit, t) → P t)
    {xs : List α}
    {s t : σ}
    (hStart : P s)
    (hRun : xs.forM f s = (.ok PUnit.unit, t)) :
    P t :=
  @forM_follows ε σ α Unit (fun s _ => P s) f (fun _ _ => ())
    (fun x s _ t => hStep x s t) xs s t () hStart hRun

/-
  Where each step tells what it accepts, a list of steps
  succeeds exactly on a list of such items.
-/
theorem forM_ok_iff
    {P : σ → Prop}
    {A : α → Prop}
    {f : α → ExceptT ε (StateM σ) PUnit}
    (hKeeps : ∀ x s t, P s → f x s = (.ok PUnit.unit, t) →
      P t)
    (hOk : ∀ x s t, P s → f x s = (.ok PUnit.unit, t) → A x)
    (hError : ∀ x s t e, P s → f x s = (.error e, t) → ¬ A x)
    {xs : List α}
    {s : σ}
    (hStart : P s) :
    (∃ t, xs.forM f s = (.ok PUnit.unit, t)) ↔
      ∀ x ∈ xs, A x := by
  induction xs generalizing s with
  | nil =>
      constructor
      · intro _ x hMem
        exact absurd hMem List.not_mem_nil
      · intro _
        exact ⟨s, forM_nil_eq_ok.mpr rfl⟩
  | cons x xs ih =>
      rw [List.forall_mem_cons]
      rcases hRun : f x s with ⟨e | ⟨⟩, u⟩
      · constructor
        · intro hAll
          rcases hAll with ⟨t, hAll⟩
          rcases forM_cons_eq_ok.mp hAll with ⟨v, hFirst, _⟩
          rw [hRun] at hFirst
          cases hFirst
        · intro hAccepted
          exact absurd hAccepted.1 (hError x s u e hStart hRun)
      · have hRest : (x :: xs).forM f s = xs.forM f u :=
          bind_of_ok hRun
        rw [hRest, ih (hKeeps x s u hStart hRun)]
        exact ⟨fun hOthers =>
          ⟨hOk x s u hStart hRun, hOthers⟩, And.right⟩

/- What both steps of a sequence keep in any case. -/
theorem bind_keeps
    {P : σ → Prop}
    {x : ExceptT ε (StateM σ) α}
    {f : α → ExceptT ε (StateM σ) β}
    {s : σ}
    (hFirst : P (x s).2)
    (hNext : ∀ a u, P u → P (f a u).2) :
    P ((x >>= f) s).2 := by
  rcases hRun : x s with ⟨e | a, u⟩
  · rw [hRun] at hFirst
    rw [bind_eq_error.mpr (.inl hRun)]
    exact hFirst
  · rw [hRun] at hFirst
    rw [bind_of_ok hRun]
    exact hNext a u hFirst

/- What every step keeps, a list of steps keeps. -/
theorem forM_keeps
    {P : σ → Prop}
    {f : α → ExceptT ε (StateM σ) PUnit}
    (hStep : ∀ x s, P s → P (f x s).2)
    {xs : List α}
    {s : σ}
    (hStart : P s) :
    P (xs.forM f s).2 := by
  induction xs generalizing s with
  | nil => exact hStart
  | cons x xs ih =>
      exact bind_keeps (hStep x s hStart) fun _ _ => ih

end Step

end TypedFlux

------------------------------------------------------------
-- Expressions
------------------------------------------------------------

namespace TypedFlux

namespace Expr

/-
  The error of an expression that no script can express,
  whatever its operands are.
-/
def refusal? : Expr → Option QueryError
  | .constant _ | .member _ | .index _ _
  | .unary .convert _ => none
  | .binary op left right =>
      if op.token? = none then
        some (.unsupported (Expr.binary op left right).text
          op.name)
      else none
  | .call receiver method args =>
      if function? method args = none then
        some (Expr.call receiver method args).unsupported
      else none
  | e => some e.unsupported

/-
  A walk over an expression fails.  What stands in front of
  the refused part was walked over.
-/
inductive Fails
    (resolver : Resolver) :
    Expr → Scope → QueryError → Scope → Prop where
  | refused
      {e : Expr}
      {error : QueryError}
      (s : Scope) :
      e.refusal? = some error → Fails resolver e s error s
  | convert
      {operand : Expr}
      {error : QueryError}
      {s t : Scope} :
      Fails resolver operand s error t →
        Fails resolver (.unary .convert operand) s error t
  | left
      {op : BinaryOp}
      {left right : Expr}
      {error : QueryError}
      {s t : Scope} :
      Fails resolver left s error t →
        Fails resolver (.binary op left right) s error t
  | right
      {op : BinaryOp}
      {left right : Expr}
      {error : QueryError}
      {s t u : Scope}
      {p : Part} :
      Visits resolver left s p t →
        Fails resolver right t error u →
          Fails resolver (.binary op left right) s error u
  | receiver
      {receiver : Expr}
      {method : String}
      {args : List Expr}
      {error : QueryError}
      {s t : Scope} :
      Fails resolver receiver s error t →
        Fails resolver (.call receiver method args) s error t
  | argument
      {receiver arg : Expr}
      {method : String}
      {before after : List Expr}
      {error : QueryError}
      {s t u v : Scope}
      {p : Part}
      {ps : List Part} :
      Visits resolver receiver s p t →
        VisitsAll resolver before t ps u →
        Fails resolver arg u error v →
          Fails resolver
            (.call receiver method (before ++ arg :: after))
            s error v

/- One of several expressions fails, and none before it. -/
def FailsAmong
    (resolver : Resolver)
    (es : List Expr)
    (s : Scope)
    (error : QueryError)
    (t : Scope) : Prop :=
  ∃ before e after ps u,
    es = before ++ e :: after ∧
    VisitsAll resolver before s ps u ∧
    Fails resolver e u error t

variable {resolver : Resolver}
variable {error : QueryError}

/- Operands that were visited can always be combined. -/
theorem combine_ne_error
    {op : BinaryOp}
    {p q : Part}
    {s t : Scope} :
    combine op p q s ≠ (.error error, t) := by
  have hOk : ∃ part u, combine op p q s = (.ok part, u) := by
    cases hComparison : op.isComparison with
    | true =>
        exact ⟨_, _,
          combine_eq_ok.mpr (.inl ⟨hComparison, rfl, rfl⟩)⟩
    | false =>
        exact ⟨_, _,
          combine_eq_ok.mpr (.inr ⟨hComparison, rfl, rfl⟩)⟩
  rcases hOk with ⟨part, u, hOk⟩
  intro hError
  rw [hOk] at hError
  cases hError

/- A function that was found is called without fail. -/
theorem call_ne_error
    {function : StringFunction}
    {part : Part}
    {s t : Scope} :
    (if function.needsImport = true then (do
        Walk.useStrings
        return part)
      else return part : Walk Part) s ≠ (.error error, t) := by
  have hOk := call_eq_ok.mpr
    (⟨rfl, rfl⟩ : part = part ∧
      s.call function = s.call function)
  intro hError
  rw [hOk] at hError
  cases hError

/- A walk over a list fails where those in it do. -/
theorem failsAmong_of_fails
    {es : List Expr}
    {s t : Scope}
    (hEach : ∀ e ∈ es, ∀ s,
      visit resolver e s = (.error error, t) →
        Fails resolver e s error t)
    (hAll : visitAll resolver es s = (.error error, t)) :
    FailsAmong resolver es s error t := by
  induction es generalizing s with
  | nil => exact absurd hAll Step.pure_ne_error
  | cons e es ih =>
      simp only [visitAll, Step.bind_eq_error,
        Step.pure_ne_error, and_false, exists_false,
        or_false] at hAll
      rcases hAll with hFirst | ⟨p, u, hFirst, hOthers⟩
      · exact ⟨[], e, es, [], s, rfl, .nil s,
          hEach e List.mem_cons_self s hFirst⟩
      · rcases ih (fun e hMem =>
          hEach e (List.mem_cons_of_mem _ hMem)) hOthers with
          ⟨before, f, after, ps, v, rfl, hBefore, hFails⟩
        exact ⟨e :: before, f, after, p :: ps, v, rfl,
          .cons (visits_of_visit hFirst) hBefore, hFails⟩

/- Every walk that fails, fails along the rules. -/
theorem fails_of_visit
    {e : Expr}
    {s t : Scope}
    (hVisit : visit resolver e s = (.error error, t)) :
    Fails resolver e s error t := by
  induction e generalizing s with
  | constant value =>
      cases hVisit
  | member name =>
      exact absurd hVisit Step.pure_ne_error
  | index name key =>
      exact absurd hVisit Step.pure_ne_error
  | binary op left right ihLeft ihRight =>
      cases hToken : op.token? with
      | none =>
          simp only [visit, hToken, Step.throw_eq_error]
            at hVisit
          rcases hVisit with ⟨rfl, rfl⟩
          exact .refused s (by simp [refusal?, hToken])
      | some token =>
          simp only [visit, hToken, Step.bind_eq_error,
            combine_ne_error, and_false, exists_false,
            or_false] at hVisit
          rcases hVisit with hLeft | ⟨p, u, hLeft, hRight⟩
          · exact .left (ihLeft hLeft)
          · exact .right (visits_of_visit hLeft)
              (ihRight hRight)
  | unary op operand ih =>
      cases op with
      | convert =>
          simp only [visit] at hVisit
          exact .convert (ih hVisit)
      | not =>
          rcases Step.throw_eq_error.mp hVisit with ⟨rfl, rfl⟩
          exact .refused s rfl
      | negate =>
          rcases Step.throw_eq_error.mp hVisit with ⟨rfl, rfl⟩
          exact .refused s rfl
  | call receiver method args ihReceiver ihArgs =>
      cases hFunction : function? method args with
      | none =>
          simp only [visit, hFunction, Step.throw_eq_error]
            at hVisit
          rcases hVisit with ⟨rfl, rfl⟩
          exact .refused s (by simp [refusal?, hFunction])
      | some function =>
          simp only [visit, hFunction, Step.bind_eq_error,
            call_ne_error, and_false, exists_false,
            or_false] at hVisit
          rcases hVisit with
            hReceiver | ⟨p, u, hReceiver, hArgs⟩
          · exact .receiver (ihReceiver hReceiver)
          · rcases failsAmong_of_fails
              (fun arg hMem s => ihArgs arg hMem) hArgs with
              ⟨before, arg, after, ps, v, rfl, hBefore, hFails⟩
            exact .argument (visits_of_visit hReceiver) hBefore
              hFails
  | parameter name =>
      rcases Step.throw_eq_error.mp hVisit with ⟨rfl, rfl⟩
      exact .refused s rfl
  | conditional test ifTrue ifFalse _ _ _ =>
      rcases Step.throw_eq_error.mp hVisit with ⟨rfl, rfl⟩
      exact .refused s rfl

/-
  A list of expressions fails at the first one that does,
  behind all that were visited.
-/
theorem failsAmong_of_visitAll
    {es : List Expr}
    {s t : Scope}
    (hAll : visitAll resolver es s = (.error error, t)) :
    FailsAmong resolver es s error t :=
  failsAmong_of_fails (fun _ _ _ => fails_of_visit) hAll

end Expr

end TypedFlux

------------------------------------------------------------
-- Clauses
------------------------------------------------------------

namespace TypedFlux

/-
  A part can neither bound the range nor become a condition.
  Those in front of it were routed.
-/
def Draft.Stops
    (parts : List Part)
    (d : Draft)
    (error : QueryError)
    (d' : Draft) : Prop :=
  ∃ before part after conditions,
    parts = before ++ part :: after ∧
    Draft.Routes before d conditions d' ∧
    (part.isCondition = true ∧ part.text = .error error ∨
      part.isCondition = false ∧
        d'.range.restrict part = .error error)

namespace Draft

variable {error : QueryError}

/- One part more was routed in front of the others. -/
theorem Stops.cons
    {part : Part}
    {rest : List Part}
    {d u d' : Draft}
    (hFirst : ∀ {before conditions},
      Routes before u conditions d' →
        ∃ conditions', Routes (part :: before) d conditions' d')
    (hRest : Stops rest u error d') :
    Stops (part :: rest) d error d' := by
  rcases hRest with
    ⟨before, stop, after, conditions, rfl, hRoutes, hStop⟩
  rcases hFirst hRoutes with ⟨conditions', hRoutes'⟩
  exact ⟨part :: before, stop, after, conditions', rfl,
    hRoutes', hStop⟩

end Draft

namespace Drafting

open Draft TypedFlux.Expr

variable {resolver : Resolver}
variable {error : QueryError}

/- A walk that fails keeps what it added to the scope. -/
theorem walk_eq_error
    {α : Type}
    {step : Walk α}
    {d d' : Draft} :
    walk step d = (.error error, d') ↔
      ∃ s, step d.scope = (.error error, s) ∧
        d' = { d with scope := s } := by
  change ((step d.scope).1,
    { d with scope := (step d.scope).2 }) =
      (.error error, d') ↔ _
  rcases hStep : step d.scope with ⟨result, scope⟩
  constructor
  · intro hRun
    cases hRun
    exact ⟨scope, rfl, rfl⟩
  · intro hRun
    rcases hRun with ⟨s, hSame, rfl⟩
    cases hSame
    rfl

/- A constant is always taken. -/
theorem bind_ne_error
    {value : Value}
    {d d' : Draft} :
    walk (Walk.bind value) d ≠ (.error error, d') := by
  intro hBind
  rcases walk_eq_error.mp hBind with ⟨s, hBind, _⟩
  cases hBind

/- A range that is refused is not changed. -/
theorem restrict_eq_error
    {part : Part}
    {d d' : Draft} :
    restrict part d = (.error error, d') ↔
      d.range.restrict part = .error error ∧ d' = d := by
  unfold restrict
  simp only [Step.bind_eq_error, Step.lift_eq_error]
  constructor
  · intro hRun
    rcases hRun with hGet | ⟨_, _, hGet, hRun⟩
    · cases hGet
    · cases hGet
      rcases hRun with ⟨hRange, rfl⟩ | ⟨_, _, _, hSet⟩
      · exact ⟨hRange, rfl⟩
      · cases hSet
  · intro hRun
    rcases hRun with ⟨hRange, rfl⟩
    exact .inr ⟨d', d', rfl, .inl ⟨hRange, rfl⟩⟩

/- Parts are routed up to the one that stops. -/
theorem stops_of_route
    {parts : List Part}
    {d d' : Draft}
    (hRoute : route parts d = (.error error, d')) :
    Stops parts d error d' := by
  induction parts generalizing d with
  | nil => exact absurd hRoute Step.pure_ne_error
  | cons part rest ih =>
      by_cases hCondition : part.isCondition = true
      · rw [route_condition hCondition] at hRoute
        simp only [Step.bind_eq_error, Step.lift_eq_error,
          Step.lift_eq_ok, Step.pure_ne_error, and_false,
          exists_false, or_false] at hRoute
        rcases hRoute with
          ⟨hText, rfl⟩ | ⟨text, _, ⟨hText, rfl⟩, hRest⟩
        · exact ⟨[], part, rest, [], rfl, .nil d,
            .inl ⟨hCondition, hText⟩⟩
        · exact (ih hRest).cons fun hRoutes =>
            ⟨_, .condition hCondition hText hRoutes⟩
      · cases part with
        | timeBound left right op =>
            simp only [route, Step.bind_eq_error,
              restrict_eq_error, restrict_eq_ok] at hRoute
            rcases hRoute with ⟨hRange, rfl⟩ |
              ⟨_, _, ⟨range, events, hRange, rfl⟩, hRest⟩
            · exact ⟨[], _, rest, [], rfl, .nil d',
                .inr ⟨rfl, hRange⟩⟩
            · exact (ih hRest).cons fun hRoutes =>
                ⟨_, .bound hRange hRoutes⟩
        | blank =>
            simp only [route] at hRoute
            exact (ih hRoute).cons fun hRoutes =>
              ⟨_, .blank hRoutes⟩
        | literal | column | binary | call | indexed =>
            exact absurd rfl hCondition

/- A predicate fails in the walk over it or when routed. -/
theorem filter_eq_error
    {predicate : Expr}
    {d d' : Draft}
    (hFilter : filter resolver predicate d =
      (.error error, d')) :
    (∃ t, FailsAmong resolver predicate.conjuncts d.scope
        error t ∧ d' = { d with scope := t }) ∨
      ∃ parts s,
        VisitsAll resolver predicate.conjuncts d.scope parts
          s ∧
        Stops parts { d with scope := s } error d' := by
  simp only [filter, visitPredicate, Step.bind_eq_error,
    walk_eq_error, walk_eq_ok, visitsAll_iff] at hFilter
  rcases hFilter with ⟨t, hAll, rfl⟩ |
    ⟨parts, _, ⟨s, hVisits, rfl⟩, hRoute⟩
  · exact .inl ⟨t, failsAmong_of_visitAll hAll, rfl⟩
  · refine .inr ⟨parts, s, hVisits, ?_⟩
    rcases hRoute with hRoute | ⟨conditions, u, _, hAdd⟩
    · exact stops_of_route hRoute
    · cases conditions with
      | nil => exact absurd hAdd Step.pure_ne_error
      | cons first others =>
          exact absurd hAdd Step.modify_ne_error

/- A key to sort by fails if it is no column. -/
theorem orderBy_eq_error
    {key : SortKey}
    {d d' : Draft}
    (hOrder : orderBy resolver key d = (.error error, d')) :
    (∃ t, Fails resolver key.expr d.scope error t ∧
        d' = { d with scope := t }) ∨
      ∃ p s,
        Visits resolver key.expr d.scope p s ∧
        (∀ role column, p ≠ .column role column) ∧
        error = key.expr.unsupported ∧
        d' = { d with scope := s } := by
  simp only [orderBy, Step.bind_eq_error, walk_eq_error,
    walk_eq_ok, visits_iff] at hOrder
  rcases hOrder with ⟨t, hVisit, rfl⟩ |
    ⟨p, _, ⟨s, hVisits, rfl⟩, hOrder⟩
  · exact .inl ⟨t, fails_of_visit hVisit, rfl⟩
  · refine .inr ⟨p, s, hVisits, ?_⟩
    rcases hOrder with
      hColumn | ⟨column, _, _, ⟨_, hBind, _⟩ |
        ⟨_, _, _, hSort⟩⟩
    · cases p with
      | column role name =>
          exact absurd hColumn Step.pure_ne_error
      | literal | binary | call | indexed | timeBound
      | blank =>
          rcases Step.throw_eq_error.mp hColumn with
            ⟨rfl, rfl⟩
          exact ⟨by simp, rfl, rfl⟩
    · cases hBind
    · exact absurd hSort Step.modify_ne_error

------------------------------------------------------------
-- Operators
------------------------------------------------------------

/- A count fails before it takes a constant. -/
theorem count_eq_error
    {op : ResultOperator}
    {n : Expr}
    {d d' : Draft}
    (hCount : count op n d = (.error error, d')) :
    error = op.unsupported ∧ d' = d := by
  unfold count at hCount
  cases hConstant : constant? n with
  | none =>
      simp only [hConstant, Step.throw_eq_error] at hCount
      rcases hCount with ⟨rfl, rfl⟩
      exact ⟨rfl, rfl⟩
  | some value =>
      simp only [hConstant] at hCount
      by_cases hValue : isCount value = true
      · rw [if_pos hValue] at hCount
        exact absurd hCount bind_ne_error
      · rw [if_neg hValue] at hCount
        rcases Step.throw_eq_error.mp hCount with ⟨rfl, rfl⟩
        exact ⟨rfl, rfl⟩

/- So does an operator at the front, for either reason. -/
theorem countFront_eq_error
    {op : ResultOperator}
    {n : Expr}
    {f : String → Pipeline → Pipeline}
    {d d' : Draft}
    (hFront : (do
      if (← get).tailTaken then throw op.unsupported
      let name ← count op n
      modifyPipeline (f name) : Drafting Unit) d =
        (.error error, d')) :
    error = op.unsupported ∧ d' = d := by
  rcases Step.bind_eq_error.mp hFront with
    hGet | ⟨_, _, hGet, hRest⟩
  · cases hGet
  · cases hGet
    split at hRest
    · rcases Step.bind_eq_error.mp hRest with
        hThrow | ⟨_, _, hThrow, _⟩
      · rcases Step.throw_eq_error.mp hThrow with ⟨rfl, rfl⟩
        exact ⟨rfl, rfl⟩
      · exact absurd hThrow Step.throw_ne_ok
    · rcases Step.bind_eq_error.mp hRest with
        hCount | ⟨_, _, _, hModify⟩
      · exact count_eq_error hCount
      · exact absurd hModify Step.modify_ne_error

/- An operator that fails leaves the draft as it is. -/
theorem operator_eq_error
    {op : ResultOperator}
    {d d' : Draft}
    (hOperator : operator op d = (.error error, d')) :
    error = op.unsupported ∧ d' = d := by
  cases op with
  | take n => exact countFront_eq_error hOperator
  | skip n => exact countFront_eq_error hOperator
  | takeLast n =>
      rcases Step.bind_eq_error.mp hOperator with
        hCount | ⟨_, _, _, hRest⟩
      · exact count_eq_error hCount
      · rcases Step.bind_eq_error.mp hRest with
          hModify | ⟨_, _, _, hModify⟩
        · exact absurd hModify Step.modify_ne_error
        · exact absurd hModify Step.modify_ne_error
  | any => exact absurd hOperator Step.pure_ne_error
  | count => exact absurd hOperator Step.modify_ne_error
  | longCount => exact absurd hOperator Step.modify_ne_error
  | first | last | single | sum | min | max | average
  | distinct =>
      rcases Step.throw_eq_error.mp hOperator with ⟨rfl, rfl⟩
      exact ⟨rfl, rfl⟩

end Drafting

end TypedFlux
