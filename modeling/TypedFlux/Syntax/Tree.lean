import TypedFlux.Expr

/-
  A query as it is written, before its names are resolved.

  Key definitions include:
    * `Node`
    * `Node.diagnostic`
    * `Direction`
    * `Clause`
    * `Comprehension`
-/

namespace TypedFlux

------------------------------------------------------------
-- Expressions as Written
------------------------------------------------------------

/- An expression whose identifiers are still names. -/
inductive Node where
  | literal (value : Value)
  | ident (name : String)
  | field (base : Node) (member : String)
  | index (base key : Node)
  | call (receiver : Node) (method : String) (args : List Node)
  | binary (op : BinaryOp) (left right : Node)
  | not (operand : Node)
  | negate (operand : Node)
  | array (items : List Node)
deriving Inhabited

namespace Node

mutual

/- The structure of a written expression, as text. -/
def diagnostic : Node → String
  | .literal v => "Literal(" ++ v.diagnostic ++ ")"
  | .ident name => "Ident(" ++ Text.quoted name ++ ")"
  | .field base member =>
      "Field(" ++ diagnostic base ++ ", " ++ Text.quoted member
        ++ ")"
  | .index base key =>
      "Index(" ++ diagnostic base ++ ", " ++ diagnostic key ++ ")"
  | .call receiver method args =>
      "Call(" ++ diagnostic receiver ++ ", " ++ Text.quoted method
        ++ ", [" ++ ", ".intercalate (diagnostics args) ++ "])"
  | .binary op left right =>
      "Binary(" ++ op.name ++ ", " ++ diagnostic left ++ ", "
        ++ diagnostic right ++ ")"
  | .not operand => "Not(" ++ diagnostic operand ++ ")"
  | .negate operand => "Negate(" ++ diagnostic operand ++ ")"
  | .array items =>
      "Array([" ++ ", ".intercalate (diagnostics items) ++ "])"

/- The structures of a list of written expressions. -/
def diagnostics : List Node → List String
  | [] => []
  | n :: rest => diagnostic n :: diagnostics rest

end

end Node

------------------------------------------------------------
-- Comprehensions
------------------------------------------------------------

/- The direction of a sort. -/
inductive Direction where
  | ascending
  | descending
deriving DecidableEq, Repr

/- A clause between the entity and the selection. -/
inductive Clause where
  | filter (predicate : Node)
  | order (keys : List (Node × Direction))

/- A call behind the selection. -/
structure OperatorCall where
  method : String
  args : List Node

/- A whole query: `from variable in entity ... select selected`. -/
structure Comprehension where
  variableName : String
  entity : String
  clauses : List Clause
  selected : String
  operators : List OperatorCall

end TypedFlux
