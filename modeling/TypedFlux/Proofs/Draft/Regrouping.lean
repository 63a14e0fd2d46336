import Mathlib.Logic.Relation
import TypedFlux.Proofs.Draft.Matching

/-
  Conjunctions, grouped otherwise.

  A predicate is taken up conjunct by conjunct, and all of them
  are walked over before the first is routed.  Two clauses route
  the conjuncts of the first before they walk over those of the
  second.  Walks do not look at the range, and routes do not
  look at the names, so both come to the same.

  Key definitions include:
    * `Expr.Joins`
    * `Expr.Regroups`, `Query.Regroups`
    * `Draft.undergo`

  Key theorems include:
    * `Drafting.settle_append`
    * `Drafting.settle_walk`
    * `Drafting.filter_joins`
    * `Query.translate_regroups`
-/

------------------------------------------------------------
-- Groups of Conjuncts
------------------------------------------------------------

namespace TypedFlux

namespace Expr

/- A conjunction of two predicates, maybe below conversions. -/
inductive Joins (a b : Expr) : Expr → Prop where
  | plain
      {op : BinaryOp} :
      op.isConjunction = true → Joins a b (.binary op a b)
  | convert
      {p : Expr} :
      Joins a b p → Joins a b (.unary .convert p)

/-
  The conjunctions of a predicate are grouped to the right in
  place of the left, at the top or within another conjunction.
  One below any other operator belongs to a single condition.
-/
inductive Regroups : Expr → Expr → Prop where
  | rotate
      {a b c left right p q : Expr} :
      Joins a b left → Joins left c p →
      Joins b c right → Joins a right q →
        Regroups p q
  | left
      {op : BinaryOp}
      {a a' b : Expr} :
      op.isConjunction = true → Regroups a a' →
        Regroups (.binary op a b) (.binary op a' b)
  | right
      {op : BinaryOp}
      {a b b' : Expr} :
      op.isConjunction = true → Regroups b b' →
        Regroups (.binary op a b) (.binary op a b')
  | convert
      {p q : Expr} :
      Regroups p q →
        Regroups (.unary .convert p) (.unary .convert q)

variable {a b p q : Expr}

/- Joined predicates have the conjuncts of both. -/
theorem Joins.conjuncts_eq
    (hJoins : Joins a b p) :
    p.conjuncts = a.conjuncts ++ b.conjuncts := by
  induction hJoins with
  | plain hConjunction =>
      exact conjuncts_of_isConjunction hConjunction
  | convert _ ih => exact ih

/- The conjuncts and their order stay the same. -/
theorem Regroups.conjuncts_eq
    (hRegroups : Regroups p q) :
    p.conjuncts = q.conjuncts := by
  induction hRegroups with
  | rotate hLeft hFirst hRight hSecond =>
      rw [hFirst.conjuncts_eq, hLeft.conjuncts_eq,
        hSecond.conjuncts_eq, hRight.conjuncts_eq,
        List.append_assoc]
  | left hConjunction _ ih =>
      rw [conjuncts_of_isConjunction hConjunction,
        conjuncts_of_isConjunction hConjunction, ih]
  | right hConjunction _ ih =>
      rw [conjuncts_of_isConjunction hConjunction,
        conjuncts_of_isConjunction hConjunction, ih]
  | convert _ ih => exact ih

/- Lists of conjuncts are visited one after the other. -/
theorem visitAll_append
    (resolver : Resolver)
    (es fs : List Expr) :
    visitAll resolver (es ++ fs) = (do
      let ps ← visitAll resolver es
      let qs ← visitAll resolver fs
      return ps ++ qs) := by
  induction es with
  | nil => simp [visitAll]
  | cons e es ih => simp [visitAll, ih]

end Expr

/-
  One clause is written as two, or the conjunctions of one are
  grouped otherwise.
-/
inductive Query.Regroups : Query → Query → Prop where
  | split
      {a b p : Expr}
      (entity : String)
      (before after : List BodyClause)
      (operators : List ResultOperator) :
      Expr.Joins a b p →
        Query.Regroups
          ⟨entity, before ++ .filter p :: after, operators⟩
          ⟨entity, before ++ .filter a :: .filter b :: after,
            operators⟩
  | within
      {p q : Expr}
      (entity : String)
      (before after : List BodyClause)
      (operators : List ResultOperator) :
      Expr.Regroups p q →
        Query.Regroups
          ⟨entity, before ++ .filter p :: after, operators⟩
          ⟨entity, before ++ .filter q :: after, operators⟩

end TypedFlux

------------------------------------------------------------
-- Walks and Routes in either Order
------------------------------------------------------------

namespace TypedFlux

namespace Draft

/- The draft after parts were routed and their conditions added. -/
def undergo
    (d : Draft)
    (effect : Part.Effect) : Draft :=
  (d.setRange effect).addConditions effect.conditions

variable {d e : Draft}

/- Effects keep drafts alike. -/
theorem Alike.undergo
    (hAlike : Alike d e)
    (effect : Part.Effect) :
    Alike (d.undergo effect) (e.undergo effect) :=
  (hAlike.setRange effect).addConditions _

/- Conditions and bounds are of no concern to names. -/
theorem undergo_withScope
    (d : Draft)
    (s : Scope)
    (effect : Part.Effect) :
    Draft.undergo { d with scope := s } effect =
      { d.undergo effect with scope := s } := by
  unfold Draft.undergo
  cases effect.conditions with
  | nil => rfl
  | cons first others => rfl

/- Effects of conjuncts do not reach the scope. -/
theorem scope_undergo
    (d : Draft)
    (effect : Part.Effect) :
    (d.undergo effect).scope = d.scope := by
  rw [Draft.undergo, scope_addConditions]
  rfl

/- The range and the filter do not meet. -/
theorem setRange_addConditions
    (d : Draft)
    (conditions : List String)
    (effect : Part.Effect) :
    (d.addConditions conditions).setRange effect =
      (d.setRange effect).addConditions conditions := by
  cases conditions with
  | nil => rfl
  | cons first others => rfl

/- Conditions are joined, whether they come at once or not. -/
theorem addConditions_append
    (d : Draft)
    (cs ds : List String) :
    Alike ((d.addConditions cs).addConditions ds)
      (d.addConditions (cs ++ ds)) := by
  cases ds with
  | nil =>
      rw [List.append_nil]
      exact .refl _
  | cons last others =>
      cases cs with
      | nil => exact .refl _
      | cons first rest =>
          have hFirst := join_concat_join Iff.rfl
            (Eq.refl (" and ".intercalate d.pipeline.filters))
            (List.cons_ne_nil first rest)
          have hAll := join_concat_join Iff.rfl
            (Eq.refl (" and ".intercalate d.pipeline.filters))
            (List.cons_ne_nil first (rest ++ last :: others))
          have hBoth := join_concat_join (by simp) hFirst
            (List.cons_ne_nil last others)
          refine ⟨.refl _, ⟨rfl, ?_, ?_⟩, rfl⟩
          · simp [Draft.addConditions, Draft.mapPipeline,
              Pipeline.addFilter, Draft.pipeline]
          · rw [List.append_assoc d.pipeline.filters
              (first :: rest)] at hBoth
            exact hBoth.trans hAll.symm

/- Two effects in turn are those of all parts. -/
theorem undergo_append
    (d : Draft)
    (first others : Part.Effect) :
    Alike ((d.undergo first).undergo others)
      (d.undergo (first.append others)) := by
  unfold Draft.undergo
  rw [setRange_addConditions, setRange_setRange]
  exact addConditions_append _ _ _

end Draft

namespace Drafting

open Draft Step TypedFlux.Expr

/- Parts that can be settled have their effects. -/
theorem settle_of_ok
    {parts : List Part}
    {effect : Part.Effect}
    (d : Draft)
    (hEffects : Part.effects parts = .ok effect) :
    ∃ d' : Draft, settle parts d = (.ok (), d') ∧
      d'.Alike (d.undergo effect) := by
  have hRoute := route_effects parts d
  rw [hEffects] at hRoute
  rcases hRoute with ⟨u, hRoute, hBounds⟩
  exact ⟨_, Step.bind_of_ok hRoute, hBounds.addConditions _⟩

theorem settle_of_error
    {parts : List Part}
    {e : QueryError}
    (d : Draft)
    (hEffects : Part.effects parts = .error e) :
    ∃ d', settle parts d = (.error e, d') := by
  have hRoute := route_effects parts d
  rw [hEffects] at hRoute
  rcases hRoute with ⟨u, hRoute⟩
  exact ⟨u, Step.bind_eq_error.mpr (.inl hRoute)⟩

/- Parts can be settled at once or in two steps. -/
theorem settle_append
    (ps qs : List Part) :
    Matched Draft.Alike Eq Eq (settle (ps ++ qs))
      (do settle ps; settle qs) := by
  intro d e hAlike
  have hBoth := Part.effects_append ps qs
  cases hFirst : Part.effects ps with
  | error error =>
      rw [hFirst] at hBoth
      rcases settle_of_error d hBoth with ⟨d', hLeft⟩
      rcases settle_of_error e hFirst with ⟨e', hRight⟩
      rw [hLeft, bind_eq_error.mpr (.inl hRight)]
      exact .error rfl
  | ok first =>
      rw [hFirst] at hBoth
      rcases settle_of_ok e hFirst with ⟨u, hSettle, hMiddle⟩
      rw [bind_of_ok hSettle]
      cases hOthers : Part.effects qs with
      | error error =>
          rw [hOthers] at hBoth
          rcases settle_of_error d hBoth with ⟨d', hLeft⟩
          rcases settle_of_error u hOthers with ⟨e', hRight⟩
          rw [hLeft, hRight]
          exact .error rfl
      | ok others =>
          rw [hOthers] at hBoth
          rcases settle_of_ok d hBoth with
            ⟨d', hLeft, hAllAtOnce⟩
          rcases settle_of_ok u hOthers with
            ⟨e', hRight, hInTwo⟩
          rw [hLeft, hRight]
          have hMoved := (hAlike.undergo first).trans
            hMiddle.symm
          exact .ok rfl (hAllAtOnce.trans
            ((d.undergo_append first others).symm.trans
              ((hMoved.undergo others).trans hInTwo.symm)))

/-
  It is the same to settle parts before a walk or behind it,
  but for the error if both fail.
-/
theorem settle_walk
    {α : Type}
    {x : Walk α}
    (hWalk : Matched Scope.Alike Eq Eq x x)
    (parts : List Part) :
    Matched Draft.Alike Eq (fun _ _ => True)
      (do
        let a ← walk x
        settle parts
        return a)
      (do settle parts; walk x) := by
  intro d e hAlike
  cases hEffects : Part.effects parts with
  | error error =>
      rcases settle_of_error e hEffects with ⟨e', hRight⟩
      rw [bind_eq_error.mpr (.inl hRight)]
      rcases hRun : walk x d with ⟨error' | a, d'⟩
      · rw [bind_eq_error.mpr (.inl hRun)]
        exact .error trivial
      · rcases settle_of_error d' hEffects with ⟨u, hLeft⟩
        rw [bind_of_ok hRun, bind_eq_error.mpr (.inl hLeft)]
        exact .error trivial
  | ok effect =>
      rcases settle_of_ok e hEffects with
        ⟨e', hSettle, hSettled⟩
      rw [bind_of_ok hSettle]
      have hScope := hSettled.scope.symm
      rw [scope_undergo] at hScope
      have hEnds := hWalk d.scope e'.scope
        (hAlike.scope.trans hScope)
      generalize hLeft : x d.scope = left at hEnds
      generalize hRight : x e'.scope = right at hEnds
      cases hEnds with
      | error _ =>
          rw [bind_eq_error.mpr (.inl
              (walk_eq_error.mpr ⟨_, hLeft, rfl⟩)),
            walk_eq_error.mpr ⟨_, hRight, rfl⟩]
          exact .error trivial
      | @ok a b s t hSame hScopes =>
          rcases settle_of_ok { d with scope := s } hEffects with
            ⟨d', hLater, hAlike'⟩
          rw [bind_of_ok (walk_eq_ok.mpr ⟨_, hLeft, rfl⟩),
            bind_of_ok hLater,
            walk_eq_ok.mpr ⟨_, hRight, rfl⟩]
          rw [undergo_withScope] at hAlike'
          have hMoved := (hAlike.undergo effect).trans
            hSettled.symm
          exact .ok hSame (hAlike'.trans
            (hMoved.withScope hScopes))

theorem walk_bind
    {α β : Type}
    (x : Walk α)
    (f : α → Walk β) :
    walk (x >>= f) = (do
      let a ← walk x
      walk (f a)) := by
  funext d
  rcases hRun : x d.scope with ⟨e | a, s⟩
  · rw [walk_eq_error.mpr
        ⟨s, bind_eq_error.mpr (.inl hRun), rfl⟩,
      bind_eq_error.mpr
        (.inl (walk_eq_error.mpr ⟨s, hRun, rfl⟩))]
  · rw [bind_of_ok (walk_eq_ok.mpr ⟨s, hRun, rfl⟩)]
    have hBind := bind_of_ok (f := f) hRun
    change (((x >>= f) d.scope).1,
      { d with scope := ((x >>= f) d.scope).2 }) = _
    rw [hBind]
    rfl

end Drafting

end TypedFlux

------------------------------------------------------------
-- Conjunctions as Clauses
------------------------------------------------------------

namespace TypedFlux

namespace Drafting

open Draft Step TypedFlux.Expr

variable (resolver : Resolver)

/- A conjunction is the same as one clause after the other. -/
theorem filter_joins
    {a b p : Expr}
    (hJoins : Joins a b p) :
    Matched Draft.Alike Eq (fun _ _ => True)
      (filter resolver p)
      (do filter resolver a; filter resolver b) := by
  have hWhole : filter resolver p = (do
      let ps ← walk (a.visitPredicate resolver)
      let qs ← walk (b.visitPredicate resolver)
      settle (ps ++ qs)) := by
    rw [filter_eq, visitPredicate, hJoins.conjuncts_eq,
      visitAll_append, walk_bind, bind_assoc]
    congr 1
    funext ps
    rw [walk_bind, bind_assoc]
    rfl
  have hParted : (do
      filter resolver a
      filter resolver b) = (do
        let ps ← walk (a.visitPredicate resolver)
        settle ps
        let qs ← walk (b.visitPredicate resolver)
        settle qs) := by
    rw [filter_eq, filter_eq, bind_assoc]
  rw [hWhole, hParted]
  have hFirst :=
    walk_matched (visitPredicate_matched resolver a)
  have hSecond :=
    walk_matched (visitPredicate_matched resolver b)
  refine hFirst.forget.bind_same fun ps => ?_
  have hSettle : Matched Draft.Alike Eq (fun _ _ => True)
      (do
        let qs ← walk (b.visitPredicate resolver)
        settle (ps ++ qs))
      (do
        let qs ← walk (b.visitPredicate resolver)
        settle ps
        settle qs) :=
    hSecond.forget.bind_same fun qs =>
      (settle_append ps qs).forget
  have hSwap := (settle_walk
    (visitPredicate_matched resolver b) ps).bind_same fun qs =>
      (settle_matched (Eq.refl (Part.effects qs))).forget
  simp only [bind_assoc, pure_bind] at hSwap
  exact hSettle.trans hSwap .refl fun _ _ _ => .trans

/- Predicates with the same conjuncts are taken up alike. -/
theorem filter_eq_of_conjuncts
    {p q : Expr}
    (hConjuncts : p.conjuncts = q.conjuncts) :
    filter resolver p = filter resolver q := by
  unfold filter visitPredicate
  rw [hConjuncts]

end Drafting

------------------------------------------------------------
-- Whole Queries
------------------------------------------------------------

namespace Query

open Step Drafting

variable {resolver : Resolver}
variable {q r : Query}

/- So two groupings of one body match. -/
theorem Regroups.matched_body
    (hRegroups : Regroups q r) :
    Matched Draft.Alike Eq (fun _ _ => True)
      (q.body.forM (clause resolver))
      (r.body.forM (clause resolver)) := by
  cases hRegroups with
  | split entity before after operators hJoins =>
      refine matched_forM_append
        (fun c _ => (clause_matched c).forget) ?_
      have hSplit := (filter_joins resolver hJoins).bind_same
        fun _ => (clauses_matched resolver after).forget
      rw [bind_assoc] at hSplit
      exact hSplit
  | @within p q entity before after operators hGroups =>
      refine matched_forM_append
        (fun c _ => (clause_matched c).forget) ?_
      have hSame : clause resolver (.filter p) =
          clause resolver (.filter q) :=
        filter_eq_of_conjuncts resolver hGroups.conjuncts_eq
      have hClause : Matched Draft.Alike Eq (fun _ _ => True)
          (clause resolver (.filter p))
          (clause resolver (.filter q)) :=
        hSame ▸ (clause_matched (.filter p)).forget
      exact hClause.bind_same fun _ =>
        (clauses_matched resolver after).forget

theorem Regroups.operators_eq
    (hRegroups : Regroups q r) :
    q.operators = r.operators := by
  cases hRegroups with
  | split => rfl
  | within => rfl

/-
  However the conjunctions of a query are grouped, and whether
  they stand in one clause or in several, the query has the
  same script and the same reduction, or none.
-/
theorem translate_regroups
    (bucket : String)
    (resolver : Resolver)
    (q r : Query)
    (hRegroups : Relation.EqvGen Regroups q r) :
    (q.translate bucket resolver).toOption =
      (r.translate bucket resolver).toOption := by
  induction hRegroups with
  | rel q r hRegroups =>
      refine toOption_translate_eq bucket
        hRegroups.matched_body ?_
      rw [hRegroups.operators_eq]
      exact (operators_matched r.operators).forget
  | refl q => rfl
  | symm q r _ ih => exact ih.symm
  | trans q r s _ _ ihFirst ihSecond =>
      exact ihFirst.trans ihSecond

/- Bounds on either side of a condition on a tag. -/
def lowerBound : Expr :=
  .binary .greaterThan (.member "at") (.constant (.int 1))

def siteTest : Expr :=
  .binary .equal (.member "site") (.constant (.string "x"))

def upperBound : Expr :=
  .binary .lessThan (.member "at") (.constant (.int 5))

def groupedQuery : Query where
  entity := "device"
  body := [
    .order [⟨.member "site", .ascending⟩],
    .filter (.unary .convert (.binary .and
      (.binary .andAlso lowerBound siteTest) upperBound))]
  operators := [.take (.constant (.int 3))]

def partedQuery : Query where
  entity := "device"
  body := [
    .order [⟨.member "site", .ascending⟩],
    .filter lowerBound,
    .filter (.unary .convert
      (.binary .andAlso siteTest upperBound))]
  operators := [.take (.constant (.int 3))]

/- A conjunction in one clause, and in several. -/
theorem translate_regroups_groupedQuery :
    Relation.EqvGen Regroups groupedQuery partedQuery ∧
      ∃ result,
        groupedQuery.translate "b" deviceResolver =
          .ok result ∧
        (partedQuery.translate "b" deviceResolver).toOption
          = some result := by
  have hRotated : Expr.Regroups
      (.unary .convert (.binary .and
        (.binary .andAlso lowerBound siteTest) upperBound))
      (.binary .and lowerBound (.unary .convert
        (.binary .andAlso siteTest upperBound))) :=
    .rotate (.plain rfl) (.convert (.plain rfl))
      (.convert (.plain rfl)) (.plain rfl)
  have hRegroups :
      Relation.EqvGen Regroups groupedQuery partedQuery :=
    .trans _ _ _
      (.rel _ _ (.within "device"
        [.order [⟨.member "site", .ascending⟩]] []
        [.take (.constant (.int 3))] hRotated))
      (.rel _ _ (.split "device"
        [.order [⟨.member "site", .ascending⟩]] []
        [.take (.constant (.int 3))] (.plain rfl)))
  rcases (⟨_, rfl⟩ : ∃ result, groupedQuery.translate "b"
    deviceResolver = .ok result) with ⟨result, hGrouped⟩
  refine ⟨hRegroups, result, hGrouped, ?_⟩
  rw [← translate_regroups "b" deviceResolver
    groupedQuery partedQuery hRegroups, hGrouped]
  rfl

end Query

end TypedFlux
