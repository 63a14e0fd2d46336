import TypedFlux.Proofs.Draft.Steps

/-
  Successful walks over expressions, as a relation.

  A walk succeeds exactly along the rules of this relation, so
  that what holds of every part follows by cases on the rule
  and by induction on the expression.

  Key definitions include:
    * `Resolver.cell`, `deviceResolver`
    * `Scope.markAgainst`
    * `Expr.Visits`, `Expr.VisitsAll`

  Key theorems include:
    * `Expr.induction`
    * `Expr.visits_iff`
    * `Expr.visitsAll_iff`
-/

------------------------------------------------------------
-- Induction on Expressions
------------------------------------------------------------

namespace TypedFlux

namespace Expr

/- Induction on an expression and on the arguments in it. -/
@[induction_eliminator]
theorem induction
    {motive : Expr → Prop}
    (constant : ∀ value, motive (.constant value))
    (member : ∀ name, motive (.member name))
    (index : ∀ name key, motive (.index name key))
    (binary : ∀ op left right,
      motive left → motive right →
        motive (.binary op left right))
    (unary : ∀ op operand,
      motive operand → motive (.unary op operand))
    (call : ∀ receiver method args,
      motive receiver → (∀ arg ∈ args, motive arg) →
        motive (.call receiver method args))
    (parameter : ∀ name, motive (.parameter name))
    (conditional : ∀ test ifTrue ifFalse,
      motive test → motive ifTrue → motive ifFalse →
        motive (.conditional test ifTrue ifFalse))
    (e : Expr) :
    motive e := by
  refine @Expr.rec motive (fun es => ∀ e ∈ es, motive e)
    constant member index binary unary call parameter
    conditional ?_ ?_ e
  · intro e hMem
    exact absurd hMem List.not_mem_nil
  · intro head tail hHead hTail e hMem
    rcases List.mem_cons.mp hMem with rfl | hMem
    · exact hHead
    · exact hTail e hMem

end Expr

end TypedFlux

------------------------------------------------------------
-- Columns of Members
------------------------------------------------------------

namespace TypedFlux

/- The column of a member. -/
def Resolver.cell
    (resolver : Resolver)
    (name : String) : String :=
  match resolver.role name with
  | .measurement => "_measurement"
  | .timestamp => "_time"
  | .tag | .field => resolver.column name

/- A column is a cell of its role. -/
theorem Part.ofColumn_eq_cell
    (resolver : Resolver)
    (name : String) :
    Part.ofColumn (resolver.role name)
        (resolver.column name) =
      .column (resolver.role name) (resolver.cell name) := by
  unfold Part.ofColumn Resolver.cell
  cases resolver.role name <;> rfl

/- Members that are a tag, the time or a field. -/
def deviceResolver : Resolver where
  role := fun name =>
    if name = "site" then .tag
    else if name = "at" then .timestamp
    else .field
  column := id

end TypedFlux

------------------------------------------------------------
-- Rules
------------------------------------------------------------

namespace TypedFlux

namespace Scope

/- The scope after a constant was compared with a column. -/
def markAgainst
    (s : Scope) : Part → Part → Scope
  | .column .tag _, .literal name => s.markTag name
  | _, _ => s

/- The scope after a function was called. -/
def call
    (s : Scope)
    (function : StringFunction) : Scope :=
  if function.needsImport then { s with usesStrings := true }
  else s

end Scope

namespace Expr

mutual

/-
  An expression becomes a part, and one scope another.
-/
inductive Visits
    (resolver : Resolver) :
    Expr → Scope → Part → Scope → Prop where
  | constant
      (value : Value)
      (s : Scope) :
      Visits resolver (.constant value) s
        (.literal s.options.nextName) (s.bind value)
  | member
      (name : String)
      (s : Scope) :
      Visits resolver (.member name) s
        (Part.ofColumn (resolver.role name)
          (resolver.column name)) s
  | index
      (name : String)
      (key : Value)
      (s : Scope) :
      Visits resolver (.index name key) s
        (.indexed key
          (Part.accessor (resolver.indexed name key))) s
  | convert
      {operand : Expr}
      {s t : Scope}
      {part : Part} :
      Visits resolver operand s part t →
        Visits resolver (.unary .convert operand) s part t
  | comparison
      {op : BinaryOp}
      {left right : Expr}
      {s t u : Scope}
      {p q : Part} :
      op.isComparison = true →
        Visits resolver left s p t →
        Visits resolver right t q u →
          Visits resolver (.binary op left right) s
            (Part.comparison op p q)
            ((u.markAgainst p q).markAgainst q p)
  | connective
      {op : BinaryOp}
      {left right : Expr}
      {s t u : Scope}
      {p q : Part} :
      op.isComparison = false → op.token? ≠ none →
        Visits resolver left s p t →
        Visits resolver right t q u →
          Visits resolver (.binary op left right) s
            (.binary op p q) u
  | call
      {receiver : Expr}
      {method : String}
      {args : List Expr}
      {function : StringFunction}
      {s t u : Scope}
      {p : Part}
      {ps : List Part} :
      function? method args = some function →
        Visits resolver receiver s p t →
        VisitsAll resolver args t ps u →
          Visits resolver (.call receiver method args) s
            (.call function (p :: ps)) (u.call function)

/- Expressions become parts, one after the other. -/
inductive VisitsAll
    (resolver : Resolver) :
    List Expr → Scope → List Part → Scope → Prop where
  | nil
      (s : Scope) :
      VisitsAll resolver [] s [] s
  | cons
      {e : Expr}
      {es : List Expr}
      {s t u : Scope}
      {p : Part}
      {ps : List Part} :
      Visits resolver e s p t →
        VisitsAll resolver es t ps u →
          VisitsAll resolver (e :: es) s (p :: ps) u

end

end Expr

end TypedFlux

------------------------------------------------------------
-- Walks Follow the Rules
------------------------------------------------------------

namespace TypedFlux

/- Every comparison can be written. -/
theorem BinaryOp.token?_of_isComparison
    {op : BinaryOp}
    (hComparison : op.isComparison = true) :
    op.token? ≠ none := by
  cases op with
  | equal | notEqual | lessThan | lessThanOrEqual
  | greaterThan | greaterThanOrEqual => exact nofun
  | _ => cases hComparison

/-
  The steps of a walk always succeed, and change the scope in
  this way.
-/
theorem Part.markAgainst_eq_ok
    {p q : Part}
    {a : Unit}
    {s t : Scope} :
    p.markAgainst q s = (.ok a, t) ↔
      s.markAgainst p q = t := by
  unfold Part.markAgainst Scope.markAgainst
  split
  · exact Step.modify_eq_ok
  · next hOther =>
      simp only [Step.pure_eq_ok, true_and]

theorem Walk.bind_eq_ok
    {value : Value}
    {name : String}
    {s t : Scope} :
    Walk.bind value s = (.ok name, t) ↔
      s.options.nextName = name ∧ s.bind value = t := by
  change (Except.ok s.options.nextName, s.bind value) =
    (.ok name, t) ↔ _
  simp

namespace Expr

variable {resolver : Resolver}

/- A call imports its package if it needs one. -/
theorem call_eq_ok
    {function : StringFunction}
    {part p : Part}
    {s t : Scope} :
    (if function.needsImport = true then (do
        Walk.useStrings
        return part)
      else return part : Walk Part) s = (.ok p, t) ↔
      part = p ∧ s.call function = t := by
  unfold Scope.call
  split
  · simp only [Walk.useStrings, Step.bind_eq_ok,
      Step.modify_eq_ok, Step.pure_eq_ok]
    constructor
    · rintro ⟨_, u, rfl, rfl, rfl⟩
      exact ⟨rfl, rfl⟩
    · rintro ⟨rfl, rfl⟩
      exact ⟨PUnit.unit, _, rfl, rfl, rfl⟩
  · exact Step.pure_eq_ok

/- Only comparisons mark their operands. -/
theorem combine_eq_ok
    {op : BinaryOp}
    {p q part : Part}
    {s t : Scope} :
    combine op p q s = (.ok part, t) ↔
      (op.isComparison = true ∧ part = Part.comparison op p q ∧
          t = (s.markAgainst p q).markAgainst q p) ∨
        (op.isComparison = false ∧ part = .binary op p q ∧
          t = s) := by
  unfold combine
  cases hComparison : op.isComparison with
  | true =>
      simp only [if_true, Step.bind_eq_ok,
        Part.markAgainst_eq_ok, Step.pure_eq_ok]
      constructor
      · rintro ⟨⟨⟩, u, rfl, ⟨⟩, v, rfl, rfl, rfl⟩
        exact .inl ⟨trivial, rfl, rfl⟩
      · rintro (⟨_, rfl, rfl⟩ | ⟨⟨⟩, _⟩)
        exact ⟨(), _, rfl, (), _, rfl, rfl, rfl⟩
  | false =>
      simp only [Bool.false_eq_true, if_false, Step.pure_eq_ok]
      constructor
      · rintro ⟨rfl, rfl⟩
        exact .inr ⟨trivial, rfl, rfl⟩
      · rintro (⟨⟨⟩, _⟩ | ⟨_, rfl, rfl⟩)
        exact ⟨rfl, rfl⟩

/- Expressions are visited from left to right. -/
theorem visitAll_eq_ok_cons
    {e : Expr}
    {es : List Expr}
    {parts : List Part}
    {s u : Scope} :
    visitAll resolver (e :: es) s = (.ok parts, u) ↔
      ∃ p ps t, visit resolver e s = (.ok p, t) ∧
        visitAll resolver es t = (.ok ps, u) ∧
        parts = p :: ps := by
  simp only [visitAll, Step.bind_eq_ok, Step.pure_eq_ok]
  constructor
  · rintro ⟨p, t, hFirst, ps, v, hOthers, rfl, rfl⟩
    exact ⟨p, ps, t, hFirst, hOthers, rfl⟩
  · rintro ⟨p, ps, t, hFirst, hOthers, rfl⟩
    exact ⟨p, t, hFirst, ps, u, hOthers, rfl, rfl⟩

/- A walk over a list follows the rules if those in it do. -/
theorem visitsAll_of_visits
    {es : List Expr}
    {ps : List Part}
    {s u : Scope}
    (hEach : ∀ e ∈ es, ∀ p s t,
      visit resolver e s = (.ok p, t) →
        Visits resolver e s p t)
    (hAll : visitAll resolver es s = (.ok ps, u)) :
    VisitsAll resolver es s ps u := by
  induction es generalizing s ps with
  | nil =>
      simp only [visitAll, Step.pure_eq_ok] at hAll
      rcases hAll with ⟨rfl, rfl⟩
      exact .nil s
  | cons e es ih =>
      rcases visitAll_eq_ok_cons.mp hAll with
        ⟨p, ps, t, hFirst, hOthers, rfl⟩
      refine .cons (hEach e List.mem_cons_self p s t hFirst) ?_
      exact ih (fun e hMem =>
        hEach e (List.mem_cons_of_mem _ hMem)) hOthers

/- Every walk that succeeds follows the rules. -/
theorem visits_of_visit
    {e : Expr}
    {part : Part}
    {s u : Scope}
    (hVisit : visit resolver e s = (.ok part, u)) :
    Visits resolver e s part u := by
  induction e generalizing s part u with
  | constant value =>
      simp only [visit, Step.bind_eq_ok, Walk.bind_eq_ok,
        Step.pure_eq_ok] at hVisit
      rcases hVisit with ⟨name, t, ⟨rfl, rfl⟩, rfl, rfl⟩
      exact .constant value s
  | member name =>
      simp only [visit, Step.pure_eq_ok] at hVisit
      rcases hVisit with ⟨rfl, rfl⟩
      exact .member name s
  | index name key =>
      simp only [visit, Step.pure_eq_ok] at hVisit
      rcases hVisit with ⟨rfl, rfl⟩
      exact .index name key s
  | binary op left right ihLeft ihRight =>
      cases hToken : op.token? with
      | none =>
          simp only [visit, hToken] at hVisit
          exact absurd hVisit Step.throw_ne_ok
      | some token =>
          simp only [visit, hToken, Step.bind_eq_ok] at hVisit
          rcases hVisit with
            ⟨p, t, hLeft, q, v, hRight, hCombine⟩
          rcases combine_eq_ok.mp hCombine with
            ⟨hComparison, rfl, rfl⟩ | ⟨hOther, rfl, rfl⟩
          · exact .comparison hComparison (ihLeft hLeft)
              (ihRight hRight)
          · exact .connective hOther (by simp [hToken])
              (ihLeft hLeft) (ihRight hRight)
  | unary op operand ih =>
      cases op with
      | convert =>
          simp only [visit] at hVisit
          exact .convert (ih hVisit)
      | not => exact absurd hVisit Step.throw_ne_ok
      | negate => exact absurd hVisit Step.throw_ne_ok
  | call receiver method args ihReceiver ihArgs =>
      cases hFunction : function? method args with
      | none =>
          simp only [visit, hFunction] at hVisit
          exact absurd hVisit Step.throw_ne_ok
      | some function =>
          simp only [visit, hFunction, Step.bind_eq_ok,
            call_eq_ok] at hVisit
          rcases hVisit with
            ⟨p, t, hReceiver, ps, v, hArgs, rfl, rfl⟩
          exact .call hFunction (ihReceiver hReceiver)
            (visitsAll_of_visits
              (fun arg hMem p s t => ihArgs arg hMem) hArgs)
  | parameter name => exact absurd hVisit Step.throw_ne_ok
  | conditional test ifTrue ifFalse _ _ _ =>
      exact absurd hVisit Step.throw_ne_ok

theorem visitAll_of_visitsAll
    {es : List Expr}
    {ps : List Part}
    {s u : Scope}
    (hEach : ∀ e ∈ es, ∀ p s t,
      Visits resolver e s p t →
        visit resolver e s = (.ok p, t))
    (hAll : VisitsAll resolver es s ps u) :
    visitAll resolver es s = (.ok ps, u) := by
  induction es generalizing s ps with
  | nil =>
      cases hAll with
      | nil => simp only [visitAll, Step.pure_eq_ok, true_and]
  | cons e es ih =>
      cases hAll with
      | cons hFirst hOthers =>
          apply visitAll_eq_ok_cons.mpr
          refine ⟨_, _, _,
            hEach e List.mem_cons_self _ _ _ hFirst, ?_, rfl⟩
          exact ih (fun e hMem =>
            hEach e (List.mem_cons_of_mem _ hMem)) hOthers

/- Every walk along the rules succeeds. -/
theorem visit_of_visits
    {e : Expr}
    {part : Part}
    {s u : Scope}
    (hVisits : Visits resolver e s part u) :
    visit resolver e s = (.ok part, u) := by
  induction e generalizing s part u with
  | constant value =>
      cases hVisits with
      | constant => rfl
  | member name =>
      cases hVisits with
      | member => simp only [visit, Step.pure_eq_ok, true_and]
  | index name key =>
      cases hVisits with
      | index => simp only [visit, Step.pure_eq_ok, true_and]
  | binary op left right ihLeft ihRight =>
      cases hVisits with
      | comparison hComparison hLeft hRight =>
          rcases Option.ne_none_iff_exists'.mp
            (BinaryOp.token?_of_isComparison hComparison) with
            ⟨token, hToken⟩
          simp only [visit, hToken, Step.bind_eq_ok]
          refine ⟨_, _, ihLeft hLeft, _, _, ihRight hRight, ?_⟩
          exact combine_eq_ok.mpr (.inl ⟨hComparison, rfl, rfl⟩)
      | connective hOther hToken hLeft hRight =>
          rcases Option.ne_none_iff_exists'.mp hToken with
            ⟨token, hToken⟩
          simp only [visit, hToken, Step.bind_eq_ok]
          refine ⟨_, _, ihLeft hLeft, _, _, ihRight hRight, ?_⟩
          exact combine_eq_ok.mpr (.inr ⟨hOther, rfl, rfl⟩)
  | unary op operand ih =>
      cases hVisits with
      | convert hOperand =>
          simp only [visit]
          exact ih hOperand
  | call receiver method args ihReceiver ihArgs =>
      cases hVisits with
      | call hFunction hReceiver hArgs =>
          simp only [visit, hFunction, Step.bind_eq_ok,
            call_eq_ok]
          refine ⟨_, _, ihReceiver hReceiver, _, _, ?_, rfl, rfl⟩
          exact visitAll_of_visitsAll
            (fun arg hMem p s t => ihArgs arg hMem) hArgs
  | parameter name => cases hVisits
  | conditional test ifTrue ifFalse _ _ _ => cases hVisits

/- The relation is what the walk does. -/
theorem visits_iff
    {e : Expr}
    {part : Part}
    {s u : Scope} :
    visit resolver e s = (.ok part, u) ↔
      Visits resolver e s part u :=
  ⟨visits_of_visit, visit_of_visits⟩

theorem visitsAll_iff
    {es : List Expr}
    {ps : List Part}
    {s u : Scope} :
    visitAll resolver es s = (.ok ps, u) ↔
      VisitsAll resolver es s ps u :=
  ⟨visitsAll_of_visits fun _ _ _ _ _ => visits_of_visit,
    visitAll_of_visitsAll fun _ _ _ _ _ => visit_of_visits⟩

end Expr

end TypedFlux
