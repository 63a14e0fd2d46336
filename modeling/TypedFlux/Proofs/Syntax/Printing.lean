import TypedFlux.Proofs.Syntax.Lexemes
import TypedFlux.Syntax.Tree

/-
  The spelling of a query.

  An expression is written with parentheses only where an
  operand binds more loosely than its place allows.  Layout
  must stand between two words and may stand between any two
  lexemes.

  Key definitions include:
    * `Node.isCanonical`, `Comprehension.isCanonical`
    * `Node.bare`, `Node.print`
    * `Style`
    * `Comprehension.print`

  Key theorems include:
    * `Node.induction`
-/

------------------------------------------------------------
-- Induction on Expressions
------------------------------------------------------------

namespace TypedFlux

namespace Node

/- Induction on an expression and on those in its lists. -/
@[induction_eliminator]
theorem induction
    {motive : Node → Prop}
    (literal : ∀ value, motive (.literal value))
    (ident : ∀ name, motive (.ident name))
    (field : ∀ base member,
      motive base → motive (.field base member))
    (index : ∀ base key,
      motive base → motive key → motive (.index base key))
    (call : ∀ receiver method args,
      motive receiver → (∀ arg ∈ args, motive arg) →
        motive (.call receiver method args))
    (binary : ∀ op left right,
      motive left → motive right →
        motive (.binary op left right))
    (not : ∀ operand, motive operand → motive (.not operand))
    (negate : ∀ operand,
      motive operand → motive (.negate operand))
    (array : ∀ items,
      (∀ item ∈ items, motive item) → motive (.array items))
    (n : Node) :
    motive n := by
  -- the second motive speaks of the expressions in a list
  refine @Node.rec motive (fun ns => ∀ n ∈ ns, motive n)
    literal ident field index call binary not negate array
    ?_ ?_ n
  · intro n hMem
    exact absurd hMem List.not_mem_nil
  · intro head tail hHead hTail n hMem
    rcases List.mem_cons.mp hMem with rfl | hMem
    · exact hHead
    · exact hTail n hMem

end Node

end TypedFlux

------------------------------------------------------------
-- Canonical Trees
------------------------------------------------------------

namespace TypedFlux

/-
  The values that a literal stands for by its plain text:
  truth values, strings, whole numbers from zero, unsigned
  only past the signed range, and whole microseconds.
-/
def Value.isPlain : Value → Bool
  | .bool _ | .string _ => true
  | .int n => 0 ≤ n.toInt
  | .uint n => 0x7fffffffffffffff < n.toNat
  | .span d =>
      0 ≤ d.total && d.total % 1000 == 0
        && d.total / 1000 ≤ 0x7fffffffffffffff
  | .float _ | .time _ | .array _ | .other _ => false

/- The operators with a symbol in the grammar. -/
def BinaryOp.isCanonical : BinaryOp → Bool
  | .and | .or => false
  | _ => true

mutual

/-
  Whether an expression can be read from a text, with
  literals of certain values only.
-/
def Node.isCanonical (accepts : Value → Bool) : Node → Bool
  | .literal v => accepts v
  | .ident x => Lexeme.isName x && x != "true" && x != "false"
  | .field base member =>
      base.isCanonical accepts && Lexeme.isName member
  | .index base key =>
      base.isCanonical accepts && key.isCanonical accepts
  | .call receiver method args =>
      receiver.isCanonical accepts && Lexeme.isName method
        && Node.areCanonical accepts args
  | .binary op left right =>
      op.isCanonical && left.isCanonical accepts
        && right.isCanonical accepts
  | .not operand | .negate operand =>
      operand.isCanonical accepts
  | .array items => Node.areCanonical accepts items

/- Whether all expressions of a list can be read. -/
def Node.areCanonical
    (accepts : Value → Bool) : List Node → Bool
  | [] => true
  | n :: rest =>
      n.isCanonical accepts && Node.areCanonical accepts rest

end

/- Whether a clause can be read; no order is without keys. -/
def Clause.isCanonical
    (accepts : Value → Bool) : Clause → Bool
  | .filter predicate => predicate.isCanonical accepts
  | .order keys =>
      !keys.isEmpty
        && keys.all fun key => key.1.isCanonical accepts

/- Whether a query can be read. -/
def Comprehension.isCanonical
    (accepts : Value → Bool)
    (q : Comprehension) : Bool :=
  Lexeme.isName q.variableName && Lexeme.isName q.entity
    && q.clauses.all (·.isCanonical accepts)
    && Lexeme.isName q.selected
    && q.operators.all fun op =>
      Lexeme.isName op.method
        && Node.areCanonical accepts op.args

end TypedFlux

------------------------------------------------------------
-- Levels of Precedence
------------------------------------------------------------

namespace TypedFlux

/-
  How tightly an operator binds, from disjunction up to
  products.
-/
def BinaryOp.level : BinaryOp → Nat
  | .orElse | .or => 0
  | .andAlso | .and => 1
  | .equal | .notEqual | .lessThan | .lessThanOrEqual
  | .greaterThan | .greaterThanOrEqual => 2
  | .add | .subtract => 3
  | .multiply | .divide | .modulo => 4

theorem BinaryOp.isComparison_iff
    {op : BinaryOp} :
    op.isComparison = true ↔ op.level = 2 := by
  cases op <;> decide

/-
  The level that a left operand must have.  Operators group to
  the left, but a comparison is no operand of a comparison.
-/
def BinaryOp.leftLevel (op : BinaryOp) : Nat :=
  if op.isComparison then op.level + 1 else op.level

/-
  How tightly an expression binds: signs above the operators,
  and all that needs no parentheses above the signs.
-/
def Node.level : Node → Nat
  | .binary op _ _ => op.level
  | .not _ | .negate _ => 5
  | _ => 6

end TypedFlux

------------------------------------------------------------
-- Printed Expressions
------------------------------------------------------------

namespace TypedFlux

/- Layout that may be empty. -/
structure Pad where
  chars : List Char
  layout : ∀ c ∈ chars, Text.isLayout c = true

/- Layout between two words. -/
structure Gap extends Pad where
  nonempty : chars ≠ []

/- The literal of a value. -/
def Value.print : Value → String
  | .string s => Flux.quote s
  | v => v.text

namespace Node

/- A text between two brackets. -/
def bracket
    (pad : Pad)
    (opening closing : Char)
    (text : List Char) : List Char :=
  opening :: (pad.chars ++ text ++ pad.chars ++ [closing])

/- The text of an expression where a level is asked for. -/
def enclose
    (pad : Pad)
    (level : Nat)
    (n : Node)
    (text : List Char) : List Char :=
  if n.level < level then bracket pad '(' ')' text else text

mutual

/- An expression without parentheses around it. -/
def bare (pad : Pad) : Node → List Char
  | .literal v => v.print.toList
  | .ident x => x.toList
  | .field base member =>
      base.enclose pad 6 (bare pad base) ++ '.' :: member.toList
  | .index base key =>
      base.enclose pad 6 (bare pad base)
        ++ bracket pad '[' ']' (bare pad key)
  | .call receiver method args =>
      receiver.enclose pad 6 (bare pad receiver)
        ++ '.' :: (method.toList
          ++ bracket pad '(' ')' (items pad args))
  | .binary op left right =>
      left.enclose pad op.leftLevel (bare pad left)
        ++ pad.chars ++ op.symbol.toList ++ pad.chars
        ++ right.enclose pad (op.level + 1) (bare pad right)
  | .not operand =>
      '!' :: (pad.chars
        ++ operand.enclose pad 5 (bare pad operand))
  | .negate operand =>
      '-' :: (pad.chars
        ++ operand.enclose pad 5 (bare pad operand))
  | .array elements => bracket pad '[' ']' (items pad elements)

/- Expressions with commas between them. -/
def items (pad : Pad) : List Node → List Char
  | [] => []
  | n :: rest => bare pad n ++ moreItems pad rest

/- Expressions, each behind a comma. -/
def moreItems (pad : Pad) : List Node → List Char
  | [] => []
  | n :: rest =>
      pad.chars ++ ',' :: (pad.chars ++ bare pad n)
        ++ moreItems pad rest

end

/- An expression as it stands where a level is asked for. -/
def print
    (pad : Pad)
    (level : Nat)
    (n : Node) : List Char :=
  n.enclose pad level (n.bare pad)

end Node

end TypedFlux

------------------------------------------------------------
-- Printed Queries
------------------------------------------------------------

namespace TypedFlux

/-
  The places between two words of a query.  Clauses and the
  keys of an order are counted from zero.
-/
inductive Separator where
  | afterFrom
  | afterVariable
  | afterIn
  | beforeClause (clause : Nat)
  | afterKeyword (clause : Nat)
  | beforeDirection (clause key : Nat)
  | beforeSelect
  | afterSelect

/-
  The free choices in writing a query: the layout everywhere,
  whether the query stands in parentheses, and whether a
  direction is written that would be understood.
-/
structure Style where
  pad : Pad
  gap : Separator → Gap
  parentheses : Bool
  directions : Bool

/- The direction of a key. -/
def Direction.print
    (style : Style)
    (clause key : Nat) : Direction → List Char
  | .ascending =>
      if style.directions then
        (style.gap (.beforeDirection clause key)).chars
          ++ "ascending".toList
      else []
  | .descending =>
      (style.gap (.beforeDirection clause key)).chars
        ++ "descending".toList

namespace Clause

/- A key of an order. -/
def printKey
    (style : Style)
    (clause key : Nat)
    (ordering : Node × Direction) : List Char :=
  ordering.1.bare style.pad
    ++ ordering.2.print style clause key

/- Further keys of an order, from a number on. -/
def printKeys
    (style : Style)
    (clause key : Nat) : List (Node × Direction) → List Char
  | [] => []
  | ordering :: rest =>
      style.pad.chars
        ++ ',' :: (style.pad.chars
          ++ printKey style clause key ordering)
        ++ printKeys style clause (key + 1) rest

/- A clause, by its number. -/
def print
    (style : Style)
    (clause : Nat) : Clause → List Char
  | .filter predicate =>
      "where".toList ++ (style.gap (.afterKeyword clause)).chars
        ++ predicate.bare style.pad
  | .order [] => "orderby".toList
  | .order (first :: rest) =>
      "orderby".toList
        ++ (style.gap (.afterKeyword clause)).chars
        ++ printKey style clause 0 first
        ++ printKeys style clause 1 rest

/- Clauses, from a number on. -/
def printAll
    (style : Style)
    (clause : Nat) : List Clause → List Char
  | [] => []
  | c :: rest =>
      (style.gap (.beforeClause clause)).chars
        ++ c.print style clause
        ++ printAll style (clause + 1) rest

end Clause

/- Calls behind the selection. -/
def OperatorCall.printAll
    (pad : Pad) : List OperatorCall → List Char
  | [] => []
  | op :: rest =>
      pad.chars ++ '.' :: (pad.chars ++ op.method.toList
        ++ pad.chars
        ++ Node.bracket pad '(' ')' (Node.items pad op.args))
        ++ printAll pad rest

namespace Comprehension

/- A query up to its selection. -/
def printBody
    (style : Style)
    (q : Comprehension) : List Char :=
  "from".toList ++ (style.gap .afterFrom).chars
    ++ q.variableName.toList
    ++ (style.gap .afterVariable).chars
    ++ "in".toList ++ (style.gap .afterIn).chars
    ++ q.entity.toList
    ++ Clause.printAll style 0 q.clauses
    ++ (style.gap .beforeSelect).chars
    ++ "select".toList ++ (style.gap .afterSelect).chars
    ++ q.selected.toList

/- A whole query. -/
def print
    (style : Style)
    (q : Comprehension) : List Char :=
  style.pad.chars
    ++ (if style.parentheses then
        Node.bracket style.pad '(' ')' (q.printBody style)
      else q.printBody style)
    ++ OperatorCall.printAll style.pad q.operators
    ++ style.pad.chars

end Comprehension

end TypedFlux
