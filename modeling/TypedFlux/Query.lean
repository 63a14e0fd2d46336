import TypedFlux.Error

/-
  Queries with resolved names.

  A query has an entity, body clauses in their order, and
  operators on its result.  The operators that keep a sequence
  can also be evaluated over items in memory.

  Key definitions include:
    * `SortKey`
    * `BodyClause`
    * `ResultOperator`
    * `ResultOperator.evaluate`
    * `Query`
    * `Query.predicates`
-/

namespace TypedFlux

------------------------------------------------------------
-- Clauses
------------------------------------------------------------

/- A key to sort by. -/
structure SortKey where
  expr : Expr
  direction : Direction

/- A predicate, or keys to sort by. -/
inductive BodyClause where
  | filter (predicate : Expr)
  | order (keys : List SortKey)

------------------------------------------------------------
-- Result Operators
------------------------------------------------------------

/- An operator on the result of a query. -/
inductive ResultOperator where
  | take (count : Expr)
  | skip (count : Expr)
  | takeLast (count : Expr)
  | any
  | count
  | longCount
  | first
  | last
  | single
  | sum
  | min
  | max
  | average
  | distinct

namespace ResultOperator

/- The method that stands for an operator. -/
def method : ResultOperator → String
  | .take _ => "Take"
  | .skip _ => "Skip"
  | .takeLast _ => "TakeLast"
  | .any => "Any"
  | .count => "Count"
  | .longCount => "LongCount"
  | .first => "First"
  | .last => "Last"
  | .single => "Single"
  | .sum => "Sum"
  | .min => "Min"
  | .max => "Max"
  | .average => "Average"
  | .distinct => "Distinct"

/- The operators without an argument. -/
def plain : List ResultOperator :=
  [.any, .count, .longCount, .first, .last, .single, .sum, .min,
    .max, .average, .distinct]

/- The number of items that an operator asks for. -/
def count? : ResultOperator → Option Expr
  | .take n | .skip n | .takeLast n => some n
  | _ => none

/- The name of an operator's kind. -/
def typeName (op : ResultOperator) : String :=
  op.method ++ "ResultOperator"

/- The operator as a call. -/
def text (op : ResultOperator) : String :=
  op.method ++ "(" ++ ((op.count?.map Expr.text).getD "") ++ ")"

/- The error of an operator that cannot be applied. -/
def unsupported (op : ResultOperator) : QueryError :=
  .unsupported op.text op.typeName

/-
  The number of items that a constant asks for: any constant
  that stands for an integer not below zero, but no floating
  point number.
-/
def itemCount
    (op : ResultOperator) : Expr → Except QueryError Nat
  | .constant v =>
      match v.toInt64? with
      | some n =>
          if 0 ≤ n.toInt ∧ v.isFloat = false then
            .ok n.toInt.toNat
          else .error (.parse (.count op.typeName v))
      | none => .error (.parse (.count op.typeName v))
  | e => .error (.unsupported e.text e.kindName)

/-
  Apply an operator that keeps a sequence to items in memory.
-/
def evaluate
    {α : Type}
    (op : ResultOperator)
    (items : List α) : Except QueryError (List α) :=
  match op with
  | .take n => do
      let k ← itemCount op n
      .ok (items.take k)
  | .skip n => do
      let k ← itemCount op n
      .ok (items.drop k)
  | .takeLast n => do
      let k ← itemCount op n
      .ok (items.drop (items.length - k))
  | _ => .error op.unsupported

end ResultOperator

------------------------------------------------------------
-- Queries
------------------------------------------------------------

/- A query over the items of one entity. -/
structure Query where
  entity : String
  body : List BodyClause
  operators : List ResultOperator

namespace Query

/- The predicates of the body, in their order. -/
def predicates (q : Query) : List Expr :=
  q.body.filterMap fun clause =>
    match clause with
    | .filter predicate => some predicate
    | .order _ => none

------------------------------------------------------------
-- Building Queries
------------------------------------------------------------

/- The query of all items of an entity. -/
def all (entity : String) : Query :=
  ⟨entity, [], []⟩

/- Add a predicate. -/
def filter
    (q : Query)
    (predicate : Expr) : Query :=
  { q with body := q.body ++ [.filter predicate] }

/- Begin a new clause of keys to sort by. -/
def orderBy
    (q : Query)
    (key : SortKey) : Query :=
  { q with body := q.body ++ [.order [key]] }

/- Add a key to the last clause, if that sorts. -/
def thenBy
    (q : Query)
    (key : SortKey) : Query :=
  match q.body.getLast? with
  | some (.order keys) =>
      { q with
        body := q.body.dropLast ++ [.order (keys ++ [key])] }
  | _ => q.orderBy key

/- Add an operator on the result. -/
def apply
    (q : Query)
    (op : ResultOperator) : Query :=
  { q with operators := q.operators ++ [op] }

/- Ask for the first items. -/
def take
    (q : Query)
    (n : Int64) : Query :=
  q.apply (.take (.constant (.int n)))

/- Ask for all but the first items. -/
def skip
    (q : Query)
    (n : Int64) : Query :=
  q.apply (.skip (.constant (.int n)))

/- Ask for the last items. -/
def takeLast
    (q : Query)
    (n : Int64) : Query :=
  q.apply (.takeLast (.constant (.int n)))

end Query

end TypedFlux
