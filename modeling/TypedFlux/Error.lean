import TypedFlux.Syntax.Reader
import TypedFlux.Syntax.Tree

/-
  What can go wrong with a query, by cause.

  Key definitions include:
    * `ParseError`
    * `ParseError.message`
    * `QueryError`
    * `QueryError.message`
-/

namespace TypedFlux

------------------------------------------------------------
-- Parse Errors
------------------------------------------------------------

/- Why a text is no query. -/
inductive ParseError where
  | missed (fault : Fault)
  | cut (fault : Fault)
  | leftover (rest : String)
  | projection (variableName selected : String)
  | bareVariable (name : String)
  | foreignMember (member : String) (base : Node)
  | foreignIndex (base : Node)
  | computedKey (key : Expr)
  | computedElement (element : Expr)
  | negation (n : Int64)
  | unknownOperator (method : String)
  | oneArgument (method : String) (given : Nat)
  | noArgument (method : String) (given : Nat)
  | count (operator : String) (value : Value)

namespace ParseError

/- The cause in words. -/
def message : ParseError → String
  | .missed fault => "Error(" ++ fault.diagnostic ++ ")"
  | .cut fault => "Failure(" ++ fault.diagnostic ++ ")"
  | .leftover rest =>
      "Unexpected input after query: '" ++ rest ++ "'"
  | .projection variableName selected =>
      "select must project the range variable '"
        ++ variableName ++ "', got '" ++ selected ++ "'"
  | .bareVariable name =>
      "range variable '" ++ name
        ++ "' must be followed by a member"
  | .foreignMember member base =>
      "member '" ++ member
        ++ "' must be accessed on the range variable, got "
        ++ base.diagnostic
  | .foreignIndex base =>
      "indexer must follow a member of the range variable, got "
        ++ base.diagnostic
  | .computedKey key =>
      "indexer key must be a constant, got " ++ key.text
  | .computedElement element =>
      "array elements must be constants, got " ++ element.text
  | .negation n =>
      "negating " ++ Numeral.ofInt n.toInt ++ " overflows"
  | .unknownOperator method =>
      "Unknown result operator '" ++ method ++ "'"
  | .oneArgument method given =>
      method ++ " expects exactly one argument, got "
        ++ Numeral.ofNat given
  | .noArgument method given =>
      method ++ " does not take arguments, got "
        ++ Numeral.ofNat given
  | .count operator value =>
      operator ++ " expects a non-negative integer count, got "
        ++ value.text

end ParseError

------------------------------------------------------------
-- Query Errors
------------------------------------------------------------

/- The two ways to run a query. -/
inductive Delivery where
  | blocking
  | streaming
deriving DecidableEq, Repr

/- Why a query has no result. -/
inductive QueryError where
  | parse (cause : ParseError)
  | unsupported (construct kind : String)
  | timeComparison (op : BinaryOp)
  | misconfigured (delivery : Delivery)
  | execution (reason : String)
  | cancelled
  | missingColumn (table : Nat) (column : String)
  | missingValue (table : Nat)
  | notCount (value : Value)
  | notScalar
  | noElements
  | moreThanOneElement

namespace QueryError

/- The cause in words. -/
def message : QueryError → String
  | .parse cause => "Parse error: " ++ cause.message
  | .unsupported construct kind =>
      "The expression '" ++ construct ++ "', type: '" ++ kind
        ++ "' is not supported."
  | .timeComparison op =>
      "Unsupported time comparison: " ++ op.name
  | .misconfigured .blocking =>
      "Executor misconfigured: synchronous execution requested "
        ++ "without a QueryApiSync"
  | .misconfigured .streaming =>
      "Executor misconfigured: asynchronous execution requested "
        ++ "without a QueryApi"
  | .execution reason => "Execution error: " ++ reason
  | .cancelled => "Query execution cancelled"
  | .missingColumn table column =>
      "Mapping error: record of table " ++ Numeral.ofNat table
        ++ " has no " ++ column ++ " column"
  | .missingValue table =>
      "Mapping error: record of table " ++ Numeral.ofNat table
        ++ " has no _value"
  | .notCount value =>
      "Mapping error: count value '" ++ value.text
        ++ "' of type " ++ value.typeName
        ++ " is not an integer"
  | .notScalar => "Query does not produce a scalar result"
  | .noElements => "Sequence contains no elements"
  | .moreThanOneElement =>
      "Sequence contains more than one element"

end QueryError

end TypedFlux
