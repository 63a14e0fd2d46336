import TypedFlux.Proofs.Draft.Matching

/-
  Queries without conversions.

  A conversion is looked through in three places: by walks, when
  the conjuncts of a predicate are taken apart, and where a
  number of rows is asked for.  None of them does anything else
  for it, and what is decided by the parts of operands never
  sees it.  Only the error of a key that is no column names the
  conversion around it.

  Key definitions include:
    * `Expr.unconverted`
    * `Query.unconverted`

  Key theorems include:
    * `Expr.visit_unconverted`
    * `Expr.conjuncts_unconverted`
    * `Drafting.clause_unconverted`
    * `Drafting.operator_unconverted`
    * `Query.translate_unconverted`
-/

------------------------------------------------------------
-- Without Conversions
------------------------------------------------------------

namespace TypedFlux

mutual

/- An expression with no conversion at any depth. -/
def Expr.unconverted : Expr → Expr
  | .constant value => .constant value
  | .member name => .member name
  | .index name key => .index name key
  | .binary op left right =>
      .binary op left.unconverted right.unconverted
  | .unary .convert operand => operand.unconverted
  | .unary .not operand => .unary .not operand.unconverted
  | .unary .negate operand => .unary .negate operand.unconverted
  | .call receiver method args =>
      .call receiver.unconverted method (Expr.unconvertedAll args)
  | .parameter name => .parameter name
  | .conditional test ifTrue ifFalse =>
      .conditional test.unconverted ifTrue.unconverted
        ifFalse.unconverted

def Expr.unconvertedAll : List Expr → List Expr
  | [] => []
  | e :: rest => e.unconverted :: Expr.unconvertedAll rest

end

def SortKey.unconverted (key : SortKey) : SortKey :=
  { key with expr := key.expr.unconverted }

def BodyClause.unconverted : BodyClause → BodyClause
  | .filter predicate => .filter predicate.unconverted
  | .order keys => .order (keys.map SortKey.unconverted)

def ResultOperator.unconverted : ResultOperator → ResultOperator
  | .take n => .take n.unconverted
  | .skip n => .skip n.unconverted
  | .takeLast n => .takeLast n.unconverted
  | op => op

/- A query with no conversion in any of its expressions. -/
def Query.unconverted (q : Query) : Query where
  entity := q.entity
  body := q.body.map BodyClause.unconverted
  operators := q.operators.map ResultOperator.unconverted

------------------------------------------------------------
-- Expressions
------------------------------------------------------------

namespace Expr

theorem unconvertedAll_eq_map
    (es : List Expr) :
    unconvertedAll es = es.map unconverted := by
  induction es with
  | nil => rfl
  | cons e es ih => rw [unconvertedAll, List.map_cons, ih]

/-
  A function is found by its method and the number of its
  arguments.
-/
theorem function?_unconvertedAll
    (method : String)
    (args : List Expr) :
    function? method (unconvertedAll args) =
      function? method args := by
  simp only [function?, unconvertedAll_eq_map, List.length_map]

/- An expression without conversions has the same text. -/
theorem texts_unconvertedAll
    {es : List Expr}
    (hEach : ∀ e ∈ es, e.unconverted.text = e.text) :
    texts (unconvertedAll es) = texts es := by
  induction es with
  | nil => rfl
  | cons e es ih =>
      rw [List.forall_mem_cons] at hEach
      simp only [unconvertedAll, texts, hEach.1, ih hEach.2]

/- No text shows a conversion. -/
theorem text_unconverted
    (e : Expr) :
    e.unconverted.text = e.text := by
  induction e with
  | constant value => rfl
  | member name => rfl
  | index name key => rfl
  | binary op left right ihLeft ihRight =>
      simp only [unconverted, text, ihLeft, ihRight]
  | unary op operand ih =>
      cases op with
      | convert | not | negate =>
          simp only [unconverted, text, ih]
  | call receiver method args ihReceiver ihArgs =>
      simp only [unconverted, text, ihReceiver,
        texts_unconvertedAll ihArgs]
  | parameter name => rfl
  | conditional test ifTrue ifFalse ihTest ihTrue ihFalse =>
      simp only [unconverted, text, ihTest, ihTrue, ihFalse]

variable (resolver : Resolver)

/- Without conversions the same is visited, one by one. -/
theorem visitAll_unconverted_of
    {es : List Expr}
    (hEach : ∀ e ∈ es,
      visit resolver e.unconverted = visit resolver e) :
    visitAll resolver (unconvertedAll es) =
      visitAll resolver es := by
  induction es with
  | nil => rfl
  | cons e es ih =>
      rw [List.forall_mem_cons] at hEach
      simp only [unconvertedAll, visitAll, hEach.1, ih hEach.2]

/-
  A walk does the same without conversions, and fails in the
  same way: the errors on its way are those of the expressions
  below the conversions.
-/
theorem visit_unconverted
    (e : Expr) :
    visit resolver e.unconverted = visit resolver e := by
  induction e with
  | constant value => rfl
  | member name => rfl
  | index name key => rfl
  | binary op left right ihLeft ihRight =>
      simp only [unconverted, visit, ihLeft, ihRight, text,
        text_unconverted]
  | unary op operand ih =>
      cases op with
      | convert => simp only [unconverted, visit, ih]
      | not | negate =>
          simp only [unconverted, visit, unsupported, kindName,
            text, text_unconverted]
  | call receiver method args ihReceiver ihArgs =>
      have hTexts := texts_unconvertedAll
        fun e (_ : e ∈ args) => text_unconverted e
      simp only [unconverted, visit, function?_unconvertedAll,
        ihReceiver, visitAll_unconverted_of resolver ihArgs,
        unsupported, kindName, text, text_unconverted, hTexts]
  | parameter name => rfl
  | conditional test ifTrue ifFalse _ _ _ =>
      simp only [unconverted, visit, unsupported, kindName, text,
        text_unconverted]

/- Conversions are dropped within each conjunct. -/
theorem conjuncts_unconverted
    (e : Expr) :
    e.unconverted.conjuncts = e.conjuncts.map unconverted := by
  induction e with
  | constant value => rfl
  | member name => rfl
  | index name key => rfl
  | binary op left right ihLeft ihRight =>
      simp only [unconverted, conjuncts]
      split
      · rw [List.map_append, ihLeft, ihRight]
      · rfl
  | unary op operand ih =>
      cases op with
      | convert => exact ih
      | not => rfl
      | negate => rfl
  | call receiver method args _ _ => rfl
  | parameter name => rfl
  | conditional test ifTrue ifFalse _ _ _ => rfl

/- So a predicate without them is visited alike. -/
theorem visitPredicate_unconverted
    (predicate : Expr) :
    predicate.unconverted.visitPredicate resolver =
      predicate.visitPredicate resolver := by
  unfold visitPredicate
  rw [conjuncts_unconverted, ← unconvertedAll_eq_map]
  exact visitAll_unconverted_of resolver
    fun e _ => visit_unconverted resolver e

/- A constant is found through conversions. -/
theorem constant?_unconverted
    (e : Expr) :
    Drafting.constant? e.unconverted = Drafting.constant? e := by
  induction e with
  | unary op operand ih =>
      cases op with
      | convert => exact ih
      | not => rfl
      | negate => rfl
  | constant | member | index | binary | call | parameter
  | conditional => rfl

end Expr

end TypedFlux

------------------------------------------------------------
-- Clauses and Operators
------------------------------------------------------------

namespace TypedFlux

open Step

namespace Drafting

variable {resolver : Resolver}

/- Filters are the same with and without conversions. -/
theorem filter_unconverted
    (predicate : Expr) :
    filter resolver predicate.unconverted =
      filter resolver predicate := by
  unfold filter
  rw [Expr.visitPredicate_unconverted]

/- The error of a key names its own kind, so it may differ. -/
theorem orderBy_unconverted
    (key : SortKey) :
    Matched Draft.Alike Eq (fun _ _ => True)
      (orderBy resolver key.unconverted)
      (orderBy resolver key) := by
  refine orderBy_matched key.direction ?_ trivial
  rw [Expr.visit_unconverted]
  exact (Expr.visit_matched key.expr).forget

/- Clauses are too, up to what a draft notes. -/
theorem clause_unconverted
    (c : BodyClause) :
    Matched Draft.Alike Eq (fun _ _ => True)
      (clause resolver c.unconverted) (clause resolver c) := by
  cases c with
  | filter predicate =>
      rw [BodyClause.unconverted, clause, filter_unconverted]
      exact (clause_matched (.filter predicate)).forget
  | order keys =>
      refine matched_forM ?_
      rw [List.forall₂_map_left_iff]
      exact List.forall₂_same.mpr
        fun key _ => orderBy_unconverted key

/- And so are operators, whose counts are constants. -/
theorem operator_unconverted
    (op : ResultOperator) :
    operator op.unconverted = operator op := by
  cases op with
  | take n | skip n | takeLast n =>
      simp only [operator, ResultOperator.unconverted, count,
        Expr.constant?_unconverted, ResultOperator.unsupported,
        ResultOperator.text, ResultOperator.typeName,
        ResultOperator.method, ResultOperator.count?,
        Option.map_some, Expr.text_unconverted]
  | any | count | longCount | first | last | single | sum | min
  | max | average | distinct => rfl

end Drafting

------------------------------------------------------------
-- Whole Queries
------------------------------------------------------------

namespace Query

open Drafting

/-
  Without its conversions, a query has the same script and the
  same reduction, or none either.
-/
theorem translate_unconverted
    (bucket : String)
    (resolver : Resolver)
    (q : Query) :
    (q.unconverted.translate bucket resolver).toOption =
      (q.translate bucket resolver).toOption := by
  have hBody : Matched Draft.Alike Eq (fun _ _ => True)
      (q.unconverted.body.forM (clause resolver))
      (q.body.forM (clause resolver)) := by
    refine matched_forM ?_
    rw [unconverted, List.forall₂_map_left_iff]
    exact List.forall₂_same.mpr fun c _ => clause_unconverted c
  have hOperators : Matched Draft.Alike Eq (fun _ _ => True)
      (q.unconverted.operators.forM operator)
      (q.operators.forM operator) := by
    refine matched_forM ?_
    rw [unconverted, List.forall₂_map_left_iff]
    refine List.forall₂_same.mpr fun op _ => ?_
    rw [operator_unconverted]
    exact (operator_matched op).forget
  exact toOption_translate_eq bucket hBody hOperators

end Query

end TypedFlux
