import TypedFlux.Value

/-
  Predicates and selectors of a query.

  Key definitions include:
    * `BinaryOp`
    * `BinaryOp.token?`
    * `UnaryOp`
    * `Expr`
    * `Expr.kindName`
    * `Expr.text`
-/

namespace TypedFlux

------------------------------------------------------------
-- Operators
------------------------------------------------------------

/-
  Binary operators.  The logical connectives come in two
  forms, of which one stops early.
-/
inductive BinaryOp where
  | equal
  | notEqual
  | lessThan
  | lessThanOrEqual
  | greaterThan
  | greaterThanOrEqual
  | andAlso
  | and
  | orElse
  | or
  | add
  | subtract
  | multiply
  | divide
  | modulo
deriving DecidableEq, Repr

namespace BinaryOp

/- Every operator. -/
def all : List BinaryOp :=
  [.equal, .notEqual, .lessThan, .lessThanOrEqual, .greaterThan,
    .greaterThanOrEqual, .andAlso, .and, .orElse, .or, .add,
    .subtract, .multiply, .divide, .modulo]

/- The operator's name. -/
def name : BinaryOp → String
  | .equal => "Equal"
  | .notEqual => "NotEqual"
  | .lessThan => "LessThan"
  | .lessThanOrEqual => "LessThanOrEqual"
  | .greaterThan => "GreaterThan"
  | .greaterThanOrEqual => "GreaterThanOrEqual"
  | .andAlso => "AndAlso"
  | .and => "And"
  | .orElse => "OrElse"
  | .or => "Or"
  | .add => "Add"
  | .subtract => "Subtract"
  | .multiply => "Multiply"
  | .divide => "Divide"
  | .modulo => "Modulo"

/- The operator's symbol in a query. -/
def symbol : BinaryOp → String
  | .equal => "=="
  | .notEqual => "!="
  | .lessThan => "<"
  | .lessThanOrEqual => "<="
  | .greaterThan => ">"
  | .greaterThanOrEqual => ">="
  | .andAlso => "&&"
  | .and => "&"
  | .orElse => "||"
  | .or => "|"
  | .add => "+"
  | .subtract => "-"
  | .multiply => "*"
  | .divide => "/"
  | .modulo => "%"

/-
  The operator's token in Flux.  Arithmetic has none: a filter
  cannot express it.
-/
def token? : BinaryOp → Option String
  | .equal => some "=="
  | .notEqual => some "!="
  | .lessThan => some "<"
  | .lessThanOrEqual => some "<="
  | .greaterThan => some ">"
  | .greaterThanOrEqual => some ">="
  | .andAlso | .and => some "and"
  | .orElse | .or => some "or"
  | .add | .subtract | .multiply | .divide | .modulo => none

/- The six equalities and inequalities. -/
def isComparison : BinaryOp → Bool
  | .equal | .notEqual | .lessThan | .lessThanOrEqual
  | .greaterThan | .greaterThanOrEqual => true
  | _ => false

/- The two forms of conjunction. -/
def isConjunction : BinaryOp → Bool
  | .andAlso | .and => true
  | _ => false

end BinaryOp

/- Unary operators.  A conversion changes no value. -/
inductive UnaryOp where
  | convert
  | not
  | negate
deriving DecidableEq, Repr

/- Every operator. -/
def UnaryOp.all : List UnaryOp :=
  [.convert, .not, .negate]

/- The operator's name. -/
def UnaryOp.name : UnaryOp → String
  | .convert => "Convert"
  | .not => "Not"
  | .negate => "Negate"

------------------------------------------------------------
-- Expressions
------------------------------------------------------------

/-
  An expression over one entity.  `index` looks a key up in a
  member, `call` applies a method to a receiver, `parameter`
  is a name without a value.
-/
inductive Expr where
  | constant (value : Value)
  | member (name : String)
  | index (member : String) (key : Value)
  | binary (op : BinaryOp) (left right : Expr)
  | unary (op : UnaryOp) (operand : Expr)
  | call (receiver : Expr) (method : String) (args : List Expr)
  | parameter (name : String)
  | conditional (test ifTrue ifFalse : Expr)
deriving Inhabited

namespace Expr

/- The name of an expression's kind. -/
def kindName : Expr → String
  | .constant _ => "Constant"
  | .member _ => "MemberAccess"
  | .index _ _ => "Index"
  | .binary _ _ _ => "Binary"
  | .unary op _ => op.name
  | .call _ _ _ => "Call"
  | .parameter _ => "Parameter"
  | .conditional _ _ _ => "Conditional"

/- A constant; only strings are quoted. -/
def constantText : Value → String
  | .string s => Text.quoted s
  | v => v.text

mutual

/-
  The text of an expression over the entity `s`, with every
  binary operation in parentheses.
-/
def text : Expr → String
  | .constant v => constantText v
  | .member name => "s." ++ name
  | .index name key => "s." ++ name ++ "[" ++ key.text ++ "]"
  | .binary op left right =>
      "(" ++ text left ++ " " ++ op.symbol ++ " "
        ++ text right ++ ")"
  | .unary .convert operand => text operand
  | .unary .not operand => "!" ++ text operand
  | .unary .negate operand => "-" ++ text operand
  | .call receiver method args =>
      text receiver ++ "." ++ method ++ "("
        ++ ", ".intercalate (texts args) ++ ")"
  | .parameter name => name
  | .conditional test ifTrue ifFalse =>
      "(" ++ text test ++ " ? " ++ text ifTrue ++ " : "
        ++ text ifFalse ++ ")"

/- The texts of a list of expressions. -/
def texts : List Expr → List String
  | [] => []
  | e :: rest => text e :: texts rest

end

end Expr

end TypedFlux
