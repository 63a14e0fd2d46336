import TypedFlux.Syntax.Lexeme

/-
  The grammar of queries.

  From the loosest to the tightest, an expression is built of
  disjunctions, conjunctions, one comparison, sums, products,
  signs and accessors.  Each level is written over a reader of
  the expressions inside brackets, and the depth of brackets
  is bounded by the length of the text.

  Key definitions include:
    * `Grammar.chain`
    * `Grammar.primary`
    * `Grammar.unary`
    * `Grammar.expression`
    * `Grammar.comprehension`
    * `Grammar.fullQuery`
-/

namespace TypedFlux

namespace Grammar

open Lexeme

------------------------------------------------------------
-- Lists in Brackets
------------------------------------------------------------

/- A comma with layout around it. -/
def comma : Reader Unit := do
  layout
  symbol ','
  layout

/- Something between an opening and a closing character. -/
def enclosed
    {α : Type}
    (opening closing : Char)
    (content : Reader α) : Reader α := do
  symbol opening
  layout
  let value ← content
  layout
  symbol closing
  pure value

/- The arguments of a call. -/
def arguments (inner : Reader Node) : Reader (List Node) :=
  enclosed '(' ')' (Reader.sepBy inner comma)

------------------------------------------------------------
-- Primaries and Accessors
------------------------------------------------------------

/- What stands on its own: brackets, literals and names. -/
def primary (inner : Reader Node) : Reader Node :=
  enclosed '(' ')' inner
    <|> (do
      let items ← enclosed '[' ']' (Reader.sepBy inner comma)
      pure (.array items))
    <|> (do let v ← timestamp; pure (.literal v))
    <|> (do let v ← span; pure (.literal v))
    <|> (do let v ← number; pure (.literal v))
    <|> (do let s ← stringLiteral; pure (.literal (.string s)))
    <|> (do keyword "true"; pure (.literal (.bool true)))
    <|> (do keyword "false"; pure (.literal (.bool false)))
    <|> (do let x ← name; pure (.ident x))

/- What may follow a primary. -/
inductive Accessor where
  | field (member : String)
  | call (method : String) (args : List Node)
  | index (key : Node)

/- Put an accessor behind an expression. -/
def Accessor.apply
    (node : Node) : Accessor → Node
  | .field member => .field node member
  | .call method args => .call node method args
  | .index key => .index node key

/- A member, a method with its arguments, or a key. -/
def accessor (inner : Reader Node) : Reader Accessor :=
  (do
    symbol '.'
    let x ← name
    match ← Reader.optional (arguments inner) with
    | some args => pure (.call x args)
    | none => pure (.field x))
  <|> (do
    let key ← enclosed '[' ']' inner
    pure (.index key))

/- A primary with its accessors. -/
def accessed (inner : Reader Node) : Reader Node := do
  let node ← primary inner
  let accessors ← Reader.many (accessor inner)
  pure (accessors.foldl Accessor.apply node)

/-
  Signs before an accessed primary.  A sign that nothing can
  follow is no sign.
-/
def unary
    (inner : Reader Node)
    (s : List Char) : Reply Node :=
  match s with
  | '!' :: rest =>
      match unary inner (rest.dropWhile Text.isLayout) with
      | .ok node rest => .ok (.not node) rest
      | .miss _ => accessed inner s
      | .cut fault => .cut fault
  | '-' :: rest =>
      match unary inner (rest.dropWhile Text.isLayout) with
      | .ok node rest => .ok (.negate node) rest
      | .miss _ => accessed inner s
      | .cut fault => .cut fault
  | _ => accessed inner s
termination_by s.length
decreasing_by
  all_goals
    have hLe := (List.dropWhile_suffix
      (l := rest) Text.isLayout).length_le
    simp
    omega

------------------------------------------------------------
-- Binary Operators
------------------------------------------------------------

/- Go on with operators and operands behind a left operand. -/
def chainTail
    (operand : Reader Node)
    (operator : Reader BinaryOp)
    (left : Node)
    (s : List Char) : Reply Node :=
  match operator (s.dropWhile Text.isLayout) with
  | .ok op between =>
      match operand (between.dropWhile Text.isLayout) with
      | .ok right rest =>
          if rest.length < s.length then
            chainTail operand operator (.binary op left right) rest
          else .ok left s
      | .miss fault => .miss fault
      | .cut fault => .cut fault
  | .miss _ => .ok left s
  | .cut fault => .cut fault
termination_by s.length

/- Operands with operators between, grouped to the left. -/
def chain
    (operand : Reader Node)
    (operator : Reader BinaryOp) : Reader Node := do
  let left ← operand
  chainTail operand operator left

/- A word that stands for an operator. -/
def operator
    (w : String)
    (op : BinaryOp) : Reader BinaryOp := do
  word w
  pure op

/- Products. -/
def product (inner : Reader Node) : Reader Node :=
  chain (unary inner)
    (operator "*" .multiply <|> operator "/" .divide
      <|> operator "%" .modulo)

/- Sums. -/
def sum (inner : Reader Node) : Reader Node :=
  chain (product inner)
    (operator "+" .add <|> operator "-" .subtract)

/- The operators of a comparison, the longer ones first. -/
def comparisonOperator : Reader BinaryOp :=
  operator "==" .equal
    <|> operator "!=" .notEqual
    <|> operator "<=" .lessThanOrEqual
    <|> operator ">=" .greaterThanOrEqual
    <|> operator "<" .lessThan
    <|> operator ">" .greaterThan

/- At most one comparison. -/
def comparison (inner : Reader Node) : Reader Node := do
  let left ← sum inner
  let compared ← Reader.optional (do
    layout
    let op ← comparisonOperator
    layout
    let right ← sum inner
    pure (op, right))
  match compared with
  | some (op, right) => pure (.binary op left right)
  | none => pure left

/- Conjunctions. -/
def conjunction (inner : Reader Node) : Reader Node :=
  chain (comparison inner) (operator "&&" .andAlso)

/- Disjunctions. -/
def disjunction (inner : Reader Node) : Reader Node :=
  chain (conjunction inner) (operator "||" .orElse)

------------------------------------------------------------
-- Expressions
------------------------------------------------------------

/- An expression with brackets nested to a depth. -/
def nested : Nat → Reader Node
  | 0 => Reader.missing .nesting
  | depth + 1 => disjunction (nested depth)

/-
  An expression.  Every bracket takes a character, so the text
  is longer than its brackets are deep.
-/
def expression : Reader Node :=
  fun s => nested (s.length + 1) s

------------------------------------------------------------
-- Comprehensions
------------------------------------------------------------

/- A key to order by, ascending unless it says otherwise. -/
def ordering : Reader (Node × Direction) := do
  let key ← expression
  let direction ← Reader.optional (do
    layout1
    (do keyword "ascending"; pure Direction.ascending)
      <|> (do keyword "descending"; pure Direction.descending))
  pure (key, direction.getD .ascending)

/- A predicate or keys to order by. -/
def clause : Reader Clause :=
  (do
    keyword "where"
    layout1
    let predicate ← expression
    pure (.filter predicate))
  <|> (do
    keyword "orderby"
    layout1
    let keys ← Reader.sepBy1 ordering comma
    pure (.order keys))

/- A comprehension without calls behind it. -/
def comprehension : Reader Comprehension := do
  keyword "from"
  layout1
  let variableName ← name
  layout1
  keyword "in"
  layout1
  let entity ← name
  let clauses ← Reader.many (do layout1; clause)
  layout1
  keyword "select"
  layout1
  let selected ← name
  pure ⟨variableName, entity, clauses, selected, []⟩

/- A call behind the selection. -/
def operatorCall : Reader OperatorCall := do
  symbol '.'
  layout
  let method ← name
  layout
  let args ← arguments expression
  pure ⟨method, args⟩

/- A comprehension, maybe in parentheses, and its calls. -/
def fullQuery : Reader Comprehension := do
  layout
  let query ← enclosed '(' ')' comprehension <|> comprehension
  let operators ← Reader.many (do layout; operatorCall)
  layout
  pure { query with operators := operators }

end Grammar

end TypedFlux
