import TypedFlux.Draft.Predicate
import TypedFlux.Flux.Range
import TypedFlux.Flux.Script
import TypedFlux.Query

/-
  Drafts of scripts.

  A draft takes up one clause or operator of a query after the
  other.  When one fails, the draft keeps what was taken up
  before.

  Key definitions include:
    * `Draft`
    * `Drafting`
    * `Draft.addQuery`
    * `Draft.script`
    * `Draft.ofQuery`
-/

namespace TypedFlux

------------------------------------------------------------
-- Drafts
------------------------------------------------------------

/-
  A script in the making.  `tailTaken` once rows are taken from
  the end: then no rows can be taken from the front any more,
  because the tail comes after the limit.
-/
structure Draft where
  scope : Scope
  range : Range
  tailTaken : Bool := false

namespace Draft

/-
  An empty draft.  Its first variables are the bucket and the
  start of the range.
-/
def new (bucket : String) : Draft :=
  let scope := (Scope.bind {} (.string bucket)).bind (.int 0)
  { scope
    range :=
      ⟨{}, { bucket := Variables.nameAfter 0
             start := Variables.nameAfter 1 }⟩ }

/- The pipeline of a draft. -/
def pipeline (d : Draft) : Pipeline :=
  d.range.pipeline

/- Change the pipeline of a draft. -/
def mapPipeline
    (d : Draft)
    (f : Pipeline → Pipeline) : Draft :=
  { d with
    range := { d.range with pipeline := f d.range.pipeline } }

/- The script of a draft. -/
def script (d : Draft) : Script where
  imports := if d.scope.usesStrings then ["strings"] else []
  statements := d.scope.options.statements
  query := d.pipeline.text

end Draft

/- A step that may fail and changes the draft in any case. -/
abbrev Drafting :=
  ExceptT QueryError (StateM Draft)

namespace Drafting

------------------------------------------------------------
-- Steps
------------------------------------------------------------

/- A walk in the scope of the draft. -/
def walk
    {α : Type}
    (step : Walk α) : Drafting α :=
  ExceptT.mk fun d =>
    let (result, scope) := step d.scope
    (result, { d with scope })

/- Change the pipeline. -/
def modifyPipeline (f : Pipeline → Pipeline) : Drafting Unit :=
  modify (·.mapPipeline f)

/- Narrow the range by a comparison of the time. -/
def restrict (part : Part) : Drafting Unit := do
  let d ← get
  let (range, events) ← (d.range.restrict part : Except _ _)
  set { d with
    range
    scope := { d.scope with
      journal := d.scope.journal ++ events } }

------------------------------------------------------------
-- Clauses
------------------------------------------------------------

/-
  Let each part bound the range or become a condition, and
  return the conditions.
-/
def route : List Part → Drafting (List String)
  | [] => return []
  | .timeBound left right op :: rest => do
      restrict (.timeBound left right op)
      route rest
  | .blank :: rest => route rest
  | part :: rest => do
      let condition ← (part.text : Except _ _)
      let conditions ← route rest
      return condition :: conditions

/- Take up a predicate. -/
def filter
    (resolver : Resolver)
    (predicate : Expr) : Drafting Unit := do
  let parts ← walk (predicate.visitPredicate resolver)
  match ← route parts with
  | [] => return
  | conditions =>
      modifyPipeline
        (·.addFilter (" and ".intercalate conditions))

/- The column that a key to sort by names. -/
def sortColumn
    (key : Expr) : Part → Drafting String
  | .column _ name => return name
  | _ => throw key.unsupported

/- Take up a key to sort by. -/
def orderBy
    (resolver : Resolver)
    (key : SortKey) : Drafting Unit := do
  let part ← walk (key.expr.visit resolver)
  let column ← sortColumn key.expr part
  let descending ← walk
    (Walk.bind (.bool (key.direction == .descending)))
  modifyPipeline (·.addSort column descending)

/- Take up a clause. -/
def clause
    (resolver : Resolver) : BodyClause → Drafting Unit
  | .filter predicate => filter resolver predicate
  | .order keys => keys.forM (orderBy resolver)

------------------------------------------------------------
-- Operators
------------------------------------------------------------

/- The constant below conversions. -/
def constant? : Expr → Option Value
  | .constant value => some value
  | .unary .convert operand => constant? operand
  | _ => none

/- Whether a constant is a number of rows. -/
def isCount : Value → Bool
  | .int n => 0 ≤ n.toInt
  | .uint _ => true
  | _ => false

/- Bind a number of rows. -/
def count
    (op : ResultOperator)
    (n : Expr) : Drafting String :=
  match constant? n with
  | some value =>
      if isCount value then walk (Walk.bind value)
      else throw op.unsupported
  | none => throw op.unsupported

/- Take up an operator. -/
def operator (op : ResultOperator) : Drafting Unit :=
  match op with
  | .take n => do
      if (← get).tailTaken then throw op.unsupported
      let name ← count op n
      modifyPipeline (·.setLimit name)
  | .skip n => do
      if (← get).tailTaken then throw op.unsupported
      let name ← count op n
      modifyPipeline (·.setOffset name)
  | .takeLast n => do
      let name ← count op n
      modifyPipeline (·.setTail name)
      modify fun d => { d with tailTaken := true }
  | .any => return
  | .count | .longCount => modifyPipeline (·.setReduction .count)
  | .first | .last | .single | .sum | .min | .max | .average
  | .distinct => throw op.unsupported

/- Take up a query. -/
def query
    (resolver : Resolver)
    (q : Query) : Drafting Unit := do
  q.body.forM (clause resolver)
  q.operators.forM operator

end Drafting

------------------------------------------------------------
-- Whole Queries
------------------------------------------------------------

namespace Draft

/- Take up a query, as far as possible. -/
def addQuery
    (d : Draft)
    (resolver : Resolver)
    (q : Query) : Except QueryError Unit × Draft :=
  Drafting.query resolver q d

/- The finished draft of a query. -/
def ofQuery
    (bucket : String)
    (resolver : Resolver)
    (q : Query) : Except QueryError Draft :=
  match (Draft.new bucket).addQuery resolver q with
  | (.ok (), d) => .ok d
  | (.error e, _) => .error e

end Draft

/- The reduction that the operators of a query ask for. -/
def Query.reduction? (q : Query) : Option Reduction :=
  q.operators.foldl (fun found op =>
    match op with
    | .count | .longCount => some .count
    | _ => found) none

end TypedFlux
