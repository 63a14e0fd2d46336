import TypedFlux.Proofs.Draft.Matching
import TypedFlux.Proofs.Draft.Selection

/-
  Comparisons of the time, read from either side.

  A comparison of the time with a constant binds the constant
  and nothing else, and what it does to the range depends on
  its test alone: which side the time stands on does not count.
  So queries that differ in that are translated to the same
  script, or fail with the same error.

  Key definitions include:
    * `Expr.Mirrors`, `Query.Mirrors`

  Key theorems include:
    * `Expr.Tests.visit_eq`
    * `Expr.Mirrors.visit_matched`
    * `Query.translate_mirrors`
-/

------------------------------------------------------------
-- Exchanged Operands
------------------------------------------------------------

namespace TypedFlux

namespace BinaryOp

variable {op : BinaryOp}

/- Mirroring is undone by mirroring again. -/
@[simp]
theorem mirrored_mirrored
    (op : BinaryOp) :
    op.mirrored.mirrored = op := by
  cases op <;> rfl

@[simp]
theorem isComparison_mirrored
    (op : BinaryOp) :
    op.mirrored.isComparison = op.isComparison := by
  cases op <;> rfl

@[simp]
theorem isConjunction_mirrored
    (op : BinaryOp) :
    op.mirrored.isConjunction = op.isConjunction := by
  cases op <;> rfl

theorem isConjunction_of_isComparison
    (hComparison : op.isComparison = true) :
    op.isConjunction = false := by
  cases op with
  | equal | notEqual | lessThan | lessThanOrEqual | greaterThan
  | greaterThanOrEqual => rfl
  | _ => cases hComparison

end BinaryOp

/-
  Some conjuncts of a predicate that compare the time with a
  constant are written from the other side.
-/
inductive Expr.Mirrors
    (resolver : Resolver) : Expr → Expr → Prop where
  | same
      (e : Expr) :
      Mirrors resolver e e
  | comparison
      {op : BinaryOp}
      {left right : Expr} :
      (Expr.binary op left right).isBound resolver = true →
        Mirrors resolver (.binary op left right)
          (.binary op.mirrored right left)
  | conjunction
      {op : BinaryOp}
      {a a' b b' : Expr} :
      op.isConjunction = true →
      Mirrors resolver a a' → Mirrors resolver b b' →
        Mirrors resolver (.binary op a b) (.binary op a' b')
  | convert
      {p q : Expr} :
      Mirrors resolver p q →
        Mirrors resolver (.unary .convert p) (.unary .convert q)

inductive BodyClause.Mirrors
    (resolver : Resolver) : BodyClause → BodyClause → Prop where
  | filter
      {p q : Expr} :
      Expr.Mirrors resolver p q →
        Mirrors resolver (.filter p) (.filter q)
  | order
      (keys : List SortKey) :
      Mirrors resolver (.order keys) (.order keys)

/- Two queries differ in comparisons of the time only. -/
structure Query.Mirrors
    (resolver : Resolver)
    (q r : Query) : Prop where
  entity : q.entity = r.entity
  body : List.Forall₂ (BodyClause.Mirrors resolver) q.body r.body
  operators : q.operators = r.operators

end TypedFlux

------------------------------------------------------------
-- Tests of the Time
------------------------------------------------------------

namespace TypedFlux

open Step

namespace Part

/- Which side the time stands on does not matter to the range. -/
theorem effect_mirrored
    {op : BinaryOp}
    (hComparison : op.isComparison = true)
    (bound : Part) :
    (timeBound (some bound) none op).effect =
      (timeBound none (some bound) op.mirrored).effect := by
  have hBounds := op.bounds_mirrored hComparison
  simp only [effect, timeEffect, timeBound?, hBounds]

end Part

namespace Expr

variable {resolver : Resolver}
variable {e f : Expr}
variable {test : TimeTest}

/-
  The time of a row is visited as its column, whatever its
  member is called.
-/
theorem visit_of_isTime
    (hTime : e.isTime resolver = true) :
    visit resolver e = pure (.column .timestamp "_time") := by
  induction e with
  | member name =>
      have hRole : resolver.role name = .timestamp :=
        of_decide_eq_true hTime
      rw [visit, hRole]
      rfl
  | unary op operand ih =>
      cases op with
      | convert =>
          rw [visit]
          exact ih hTime
      | not | negate => cases hTime
  | constant | index | binary | call | parameter
  | conditional => cases hTime

/- A constant is visited as its name. -/
theorem visit_of_constant?
    {value : Value}
    (hConstant : Drafting.constant? e = some value) :
    visit resolver e = (do
      let name ← Walk.bind value
      return .literal name) := by
  induction e with
  | constant =>
      cases hConstant
      rw [visit]
  | unary op operand ih =>
      cases op with
      | convert =>
          rw [visit]
          exact ih hConstant
      | not | negate => cases hConstant
  | member | index | binary | call | parameter
  | conditional => cases hConstant

/- A comparison marks each side against the other. -/
theorem visit_of_isComparison
    {op : BinaryOp}
    {left right : Expr}
    (hComparison : op.isComparison = true) :
    visit resolver (.binary op left right) = (do
      let p ← visit resolver left
      let q ← visit resolver right
      p.markAgainst q
      q.markAgainst p
      return Part.comparison op p q) := by
  rcases Option.ne_none_iff_exists'.mp
    (BinaryOp.token?_of_isComparison hComparison) with
    ⟨token, hToken⟩
  simp only [visit, hToken, combine, hComparison, if_true]

/-
  A comparison of the time binds its constant and becomes a
  part that does what its test says.
-/
theorem Tests.visit_eq
    (hTests : e.Tests resolver test) :
    ∃ part : String → Part,
      visit resolver e = (do
        let name ← Walk.bind test.value
        return part name) ∧
      ∀ name, (part name).effect =
        (Part.timeBound none (some (.literal name))
          test.op).effect := by
  induction hTests with
  | timeAtLeft hComparison hTime hConstant =>
      refine ⟨_, ?_, fun name => rfl⟩
      rw [visit_of_isComparison hComparison,
        visit_of_isTime hTime, visit_of_constant? hConstant]
      simp only [pure_bind, bind_assoc]
      rfl
  | timeAtRight hComparison hConstant hTime =>
      refine ⟨_, ?_, fun name =>
        Part.effect_mirrored hComparison (.literal name)⟩
      rw [visit_of_isComparison hComparison,
        visit_of_isTime hTime, visit_of_constant? hConstant]
      simp only [pure_bind, bind_assoc]
      rfl
  | convert _ ih =>
      rw [visit]
      exact ih

/- One test in two forms has one effect. -/
theorem Tests.visit_matched
    (hFirst : e.Tests resolver test)
    (hSecond : f.Tests resolver test) :
    Matched Scope.Alike (fun p q => p.effect = q.effect) Eq
      (visit resolver e) (visit resolver f) := by
  rcases hFirst.visit_eq with ⟨p, hFirst, hLeft⟩
  rcases hSecond.visit_eq with ⟨q, hSecond, hRight⟩
  rw [hFirst, hSecond]
  exact (Walk.bind_matched test.value).bind_same fun name =>
    matched_pure ((hLeft name).trans (hRight name).symm)

/- Either side makes the same test. -/
theorem exists_tests_mirrored
    {op : BinaryOp}
    {left right : Expr}
    (hBound : (Expr.binary op left right).isBound resolver =
      true) :
    ∃ test, (Expr.binary op left right).Tests resolver test ∧
      (Expr.binary op.mirrored right left).Tests resolver
        test := by
  simp only [isBound, Bool.and_eq_true, Bool.or_eq_true,
    Option.isSome_iff_exists] at hBound
  rcases hBound with ⟨hComparison,
    ⟨hTime, value, hConstant⟩ | ⟨⟨value, hConstant⟩, hTime⟩⟩
  · have hMirrored : (Expr.binary op.mirrored right left).Tests
        resolver ⟨op.mirrored.mirrored, value⟩ :=
      .timeAtRight (op.isComparison_mirrored.trans hComparison)
        hConstant hTime
    rw [op.mirrored_mirrored] at hMirrored
    exact ⟨_, .timeAtLeft hComparison hTime hConstant, hMirrored⟩
  · exact ⟨_, .timeAtRight hComparison hConstant hTime,
      .timeAtLeft (op.isComparison_mirrored.trans hComparison)
        hTime hConstant⟩

/- The conjuncts match one by one. -/
theorem Mirrors.visit_matched
    (hMirrors : Mirrors resolver e f) :
    List.Forall₂ (fun e f =>
      Matched Scope.Alike (fun p q => p.effect = q.effect) Eq
        (visit resolver e) (visit resolver f))
      e.conjuncts f.conjuncts := by
  induction hMirrors with
  | same e =>
      exact List.forall₂_same.mpr fun e _ =>
        (Expr.visit_matched e).mono (fun _ _ => congrArg _)
          fun _ _ => id
  | comparison hBound =>
      rcases exists_tests_mirrored hBound with
        ⟨test, hFirst, hSecond⟩
      have hOther := BinaryOp.isConjunction_of_isComparison
        (Bool.and_eq_true_iff.mp hBound).1
      rw [conjuncts_of_not_isConjunction hOther,
        conjuncts_of_not_isConjunction
          ((BinaryOp.isConjunction_mirrored _).trans hOther)]
      exact .cons (hFirst.visit_matched hSecond) .nil
  | conjunction hConjunction _ _ ihFirst ihSecond =>
      rw [conjuncts_of_isConjunction hConjunction,
        conjuncts_of_isConjunction hConjunction]
      exact List.rel_append ihFirst ihSecond
  | convert _ ih => exact ih

end Expr

end TypedFlux

------------------------------------------------------------
-- Whole Queries
------------------------------------------------------------

namespace TypedFlux

open Step Drafting

variable {resolver : Resolver}

/- So mirrored clauses match, step by step. -/
theorem BodyClause.Mirrors.clause_matched
    {c c' : BodyClause}
    (hMirrors : BodyClause.Mirrors resolver c c') :
    Matched Draft.Alike Eq Eq (clause resolver c)
      (clause resolver c') := by
  cases hMirrors with
  | filter hMirrors =>
      exact filter_matched
        ((Expr.visitAll_matched hMirrors.visit_matched).mono
          (fun _ _ => Part.effects_eq) fun _ _ => id)
  | order keys => exact Drafting.clause_matched (.order keys)

namespace Query

/-
  From whichever side the time is compared with constants, the
  query has the same script and the same reduction, or fails
  with the same error.
-/
theorem translate_mirrors
    (bucket : String)
    (resolver : Resolver)
    (q r : Query)
    (hMirrors : q.Mirrors resolver r) :
    r.translate bucket resolver =
      q.translate bucket resolver := by
  have hBody : Matched Draft.Alike Eq Eq
      (q.body.forM (clause resolver))
      (r.body.forM (clause resolver)) :=
    matched_forM (hMirrors.body.imp
      fun _ _ hClause => hClause.clause_matched)
  have hOperators : Matched Draft.Alike Eq Eq
      (q.operators.forM operator)
      (r.operators.forM operator) := by
    rw [hMirrors.operators]
    exact operators_matched r.operators
  rcases translate_matched bucket hBody hOperators with
    ⟨result, hFirst, hSecond⟩ | ⟨e, f, hFirst, hSecond, hSame⟩
  · rw [hFirst, hSecond]
  · rw [hFirst, hSecond, hSame]

/-
  The time stands on the left throughout.  The last bound takes
  the place of the first.
-/
def timeFirstQuery : Query where
  entity := "device"
  body := [
    .filter (.binary .and
      (.binary .greaterThan (.member "at") (.constant (.int 1)))
      (.unary .convert (.binary .andAlso
        (.binary .equal (.member "site") (.constant (.int 7)))
        (.binary .lessThanOrEqual
          (.unary .convert (.member "at"))
          (.constant (.int 5)))))),
    .order [⟨.member "at", .descending⟩],
    .filter (.binary .equal (.member "at") (.constant (.int 2)))]
  operators := [.count]

/- Two of its three comparisons, from the other side. -/
def constantFirstQuery : Query where
  entity := "device"
  body := [
    .filter (.binary .and
      (.binary .greaterThan (.member "at") (.constant (.int 1)))
      (.unary .convert (.binary .andAlso
        (.binary .equal (.member "site") (.constant (.int 7)))
        (.binary .greaterThanOrEqual
          (.constant (.int 5))
          (.unary .convert (.member "at")))))),
    .order [⟨.member "at", .descending⟩],
    .filter (.binary .equal (.constant (.int 2)) (.member "at"))]
  operators := [.count]

/-
  The time on the left in one query and on the right in the
  other.
-/
theorem translate_mirrors_timeFirstQuery :
    timeFirstQuery.Mirrors deviceResolver
        constantFirstQuery ∧
      ∃ result,
        timeFirstQuery.translate "b" deviceResolver =
          .ok result ∧
        constantFirstQuery.translate "b" deviceResolver =
          .ok result := by
  have hMirrors : timeFirstQuery.Mirrors deviceResolver
      constantFirstQuery := by
    refine ⟨rfl, .cons (.filter ?_)
      (.cons (.order _) (.cons (.filter ?_) .nil)), rfl⟩
    · exact .conjunction rfl (.same _) (.convert
        (.conjunction rfl (.same _) (.comparison rfl)))
    · exact .comparison rfl
  rcases (⟨_, rfl⟩ : ∃ result, timeFirstQuery.translate "b"
    deviceResolver = .ok result) with ⟨result, hFirst⟩
  refine ⟨hMirrors, result, hFirst, ?_⟩
  rw [translate_mirrors "b" deviceResolver timeFirstQuery
    constantFirstQuery hMirrors, hFirst]

end Query

end TypedFlux
