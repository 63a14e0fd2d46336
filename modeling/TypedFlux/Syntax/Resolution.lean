import TypedFlux.Syntax.Grammar
import TypedFlux.Syntax.Registry

/-
  From written queries to queries with resolved names.

  A name is the range variable, a bound constant, or a
  parameter.  Members and keys are only looked up on the range
  variable.

  Key definitions include:
    * `Bindings`
    * `Node.resolve`
    * `Comprehension.resolve`
    * `QueryReader`
    * `QueryReader.read`
-/

namespace TypedFlux

------------------------------------------------------------
-- Bindings
------------------------------------------------------------

/- Constants by name; of two for one name the first counts. -/
abbrev Bindings :=
  List (String × Value)

namespace Bindings

/- Bind a name, in place of an earlier constant. -/
def bind
    (b : Bindings)
    (name : String)
    (value : Value) : Bindings :=
  (name, value) :: b

/- The constant of a name. -/
def get?
    (b : Bindings)
    (name : String) : Option Value :=
  b.lookup name

end Bindings

------------------------------------------------------------
-- Expressions
------------------------------------------------------------

namespace Node

/- The member that an expression names on a range variable. -/
def memberOf?
    (variableName : String) : Node → Option String
  | .field (.ident x) member =>
      if x = variableName then some member else none
  | _ => none

/- An operand with its sign changed, at once if constant. -/
def negated : Expr → Except QueryError Expr
  | .constant (.int n) =>
      if n = Int64.minValue then .error (.parse (.negation n))
      else .ok (.constant (.int (-n)))
  | .constant (.float x) => .ok (.constant (.float x.neg))
  | .constant (.span d) => .ok (.constant (.span d.neg))
  | e => .ok (.unary .negate e)

mutual

/- Resolve the names of a written expression. -/
def resolve
    (variableName : String)
    (bindings : Bindings) : Node → Except QueryError Expr
  | .literal v => .ok (.constant v)
  | .ident x =>
      if x = variableName then .error (.parse (.bareVariable x))
      else
        match bindings.get? x with
        | some v => .ok (.constant v)
        | none => .ok (.parameter x)
  | .field base member =>
      match memberOf? variableName (.field base member) with
      | some member => .ok (.member member)
      | none => .error (.parse (.foreignMember member base))
  | .index base key =>
      match memberOf? variableName base with
      | some member => do
          match ← resolve variableName bindings key with
          | .constant v => .ok (.index member v)
          | e => .error (.parse (.computedKey e))
      | none => .error (.parse (.foreignIndex base))
  | .call receiver method args => do
      let receiver ← resolve variableName bindings receiver
      let args ← resolveAll variableName bindings args
      .ok (.call receiver method args)
  | .binary op left right => do
      let left ← resolve variableName bindings left
      let right ← resolve variableName bindings right
      .ok (.binary op left right)
  | .not operand => do
      let operand ← resolve variableName bindings operand
      .ok (.unary .not operand)
  | .negate operand => do
      let operand ← resolve variableName bindings operand
      negated operand
  | .array items => do
      let values ← resolveElements variableName bindings items
      .ok (.constant (.array values))

/- Resolve written expressions in their order. -/
def resolveAll
    (variableName : String)
    (bindings : Bindings) :
    List Node → Except QueryError (List Expr)
  | [] => .ok []
  | n :: rest => do
      let e ← resolve variableName bindings n
      let es ← resolveAll variableName bindings rest
      .ok (e :: es)

/- Resolve the elements of an array, which are constants. -/
def resolveElements
    (variableName : String)
    (bindings : Bindings) :
    List Node → Except QueryError (List Value)
  | [] => .ok []
  | n :: rest => do
      match ← resolve variableName bindings n with
      | .constant v =>
          let vs ← resolveElements variableName bindings rest
          .ok (v :: vs)
      | e => .error (.parse (.computedElement e))

end

end Node

------------------------------------------------------------
-- Comprehensions
------------------------------------------------------------

/- Resolve the keys of an ordering. -/
def resolveKeys
    (variableName : String)
    (bindings : Bindings) :
    List (Node × Direction) → Except QueryError (List SortKey)
  | [] => .ok []
  | (key, direction) :: rest => do
      let e ← key.resolve variableName bindings
      let keys ← resolveKeys variableName bindings rest
      .ok (⟨e, direction⟩ :: keys)

/- Resolve a clause. -/
def Clause.resolve
    (variableName : String)
    (bindings : Bindings) : Clause → Except QueryError BodyClause
  | .filter predicate => do
      let e ← predicate.resolve variableName bindings
      .ok (.filter e)
  | .order keys => do
      let keys ← resolveKeys variableName bindings keys
      .ok (.order keys)

/- Resolve a call behind the selection. -/
def OperatorCall.resolve
    (registry : Registry)
    (variableName : String)
    (bindings : Bindings)
    (call : OperatorCall) : Except QueryError ResultOperator := do
  let args ← Node.resolveAll variableName bindings call.args
  registry.create call.method args

/-
  Resolve a whole comprehension.  It has to select its range
  variable.
-/
def Comprehension.resolve
    (registry : Registry)
    (bindings : Bindings)
    (c : Comprehension) : Except QueryError Query := do
  if c.selected ≠ c.variableName then
    .error (.parse (.projection c.variableName c.selected))
  else
    let body ← c.clauses.mapM
      (Clause.resolve c.variableName bindings)
    let operators ← c.operators.mapM
      (OperatorCall.resolve registry c.variableName bindings)
    .ok ⟨c.entity, body, operators⟩

------------------------------------------------------------
-- Query Text
------------------------------------------------------------

/- Reads queries with known methods and bound constants. -/
structure QueryReader where
  registry : Registry := Registry.full
  bindings : Bindings := []

namespace QueryReader

/- Bind a name to a constant. -/
def bind
    (r : QueryReader)
    (name : String)
    (value : Value) : QueryReader :=
  { r with bindings := r.bindings.bind name value }

/- The comprehension that a text consists of. -/
def parse (s : String) : Except QueryError Comprehension :=
  match Grammar.fullQuery (Text.trimChars s.toList) with
  | .ok c rest =>
      let rest := Text.trimChars rest
      if rest.isEmpty then .ok c
      else .error (.parse (.leftover (String.ofList rest)))
  | .miss fault => .error (.parse (.missed fault))
  | .cut fault => .error (.parse (.cut fault))

/- The query that a text stands for. -/
def read
    (r : QueryReader)
    (s : String) : Except QueryError Query := do
  let c ← parse s
  c.resolve r.registry r.bindings

end QueryReader

end TypedFlux
