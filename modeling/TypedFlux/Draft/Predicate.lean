import TypedFlux.Draft.Scope
import TypedFlux.Flux.Part

/-
  Predicates as parts of a script.

  Constants become variables, members become columns.  What a
  filter cannot express is an error.

  Key definitions include:
    * `Expr.unsupported`
    * `Part.comparison`
    * `Expr.visit`
    * `Expr.conjuncts`
    * `Expr.visitPredicate`
-/

namespace TypedFlux

------------------------------------------------------------
-- Comparisons
------------------------------------------------------------

/-
  Tags hold strings, so a constant that is compared with a tag
  is marked.
-/
def Part.markAgainst : Part → Part → Walk Unit
  | .column .tag _, .literal variableName =>
      Walk.markTag variableName
  | _, _ => return

/-
  A comparison.  One of the time with a constant can become a
  bound of the range, where no row is in scope.
-/
def Part.comparison
    (op : BinaryOp)
    (left right : Part) : Part :=
  if left.isTimeColumn && !right.isTimeColumn
      && right.isLiteral then
    .timeBound none (some right) op
  else if !left.isTimeColumn && right.isTimeColumn
      && left.isLiteral then
    .timeBound (some left) none op
  else .binary op left right

------------------------------------------------------------
-- Expressions
------------------------------------------------------------

namespace Expr

/- The error of an expression that a script cannot express. -/
def unsupported (e : Expr) : QueryError :=
  .unsupported e.text e.kindName

/- The function of a call with a fitting number of arguments. -/
def function?
    (method : String)
    (args : List Expr) : Option StringFunction := do
  let function ← StringFunction.ofMethod? method
  if function.parameters.length = args.length + 1 then
    return function
  else none

/- Two parts under an operator. -/
def combine
    (op : BinaryOp)
    (left right : Part) : Walk Part := do
  if op.isComparison then
    left.markAgainst right
    right.markAgainst left
    return Part.comparison op left right
  else
    return .binary op left right

mutual

/- The part of an expression. -/
def visit (resolver : Resolver) : Expr → Walk Part
  | .constant value => do
      let name ← Walk.bind value
      return .literal name
  | .member name =>
      return Part.ofColumn (resolver.role name)
        (resolver.column name)
  | .index name key =>
      return .indexed key
        (Part.accessor (resolver.indexed name key))
  | .unary .convert operand => visit resolver operand
  | .binary op left right =>
      match op.token? with
      | none =>
          throw (.unsupported (Expr.binary op left right).text
            op.name)
      | some _ => do
          let left ← visit resolver left
          let right ← visit resolver right
          combine op left right
  | .call receiver method args =>
      match function? method args with
      | none => throw (Expr.call receiver method args).unsupported
      | some function => do
          let receiver ← visit resolver receiver
          let args ← visitAll resolver args
          if function.needsImport then
            Walk.useStrings
          return .call function (receiver :: args)
  | e => throw e.unsupported

/- The parts of a list of expressions. -/
def visitAll
    (resolver : Resolver) : List Expr → Walk (List Part)
  | [] => return []
  | e :: rest => do
      let part ← visit resolver e
      let parts ← visitAll resolver rest
      return part :: parts

end

------------------------------------------------------------
-- Conjuncts
------------------------------------------------------------

/- The operands of the conjunctions at the top, in order. -/
def conjuncts : Expr → List Expr
  | .binary op left right =>
      if op.isConjunction then conjuncts left ++ conjuncts right
      else [.binary op left right]
  | .unary .convert operand => conjuncts operand
  | e => [e]

/- The parts of a predicate, one for every conjunct. -/
def visitPredicate
    (resolver : Resolver)
    (predicate : Expr) : Walk (List Part) :=
  visitAll resolver predicate.conjuncts

end Expr

end TypedFlux
