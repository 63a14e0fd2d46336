import TypedFlux.Value

/-
  Literals of the Flux language.

  Key definitions include:
    * `Flux.quote`
    * `Literal`
    * `Literal.ofValue`
    * `Literal.text`
-/

namespace TypedFlux

------------------------------------------------------------
-- String Literals
------------------------------------------------------------

namespace Flux

/-
  The characters of a string literal between its quotes.  The
  quote, the backslash, line ends and tabs are escaped, and so
  is the dollar sign that would begin an interpolation.
-/
def escape : List Char → List Char
  | [] => []
  | '\x5c' :: cs => '\x5c' :: '\x5c' :: escape cs
  | '\x22' :: cs => '\x5c' :: '\x22' :: escape cs
  | '\n' :: cs => '\x5c' :: 'n' :: escape cs
  | '\r' :: cs => '\x5c' :: 'r' :: escape cs
  | '\t' :: cs => '\x5c' :: 't' :: escape cs
  | '$' :: '\x7b' :: cs =>
      '\x5c' :: '$' :: '\x7b' :: escape cs
  | c :: cs => c :: escape cs

/- A string literal. -/
def quote (s : String) : String :=
  String.ofList ('\x22' :: (escape s.toList ++ ['\x22']))

end Flux

------------------------------------------------------------
-- Literals
------------------------------------------------------------

/- A literal; durations count microseconds. -/
inductive Literal where
  | integer (n : Int64)
  | unsigned (n : UInt64)
  | boolean (b : Bool)
  | float (x : Binary64)
  | string (s : String)
  | time (t : Instant)
  | duration (micros : Int64)
  | array (items : List Literal)

namespace Literal

mutual

/-
  The literal of a value.  Tags hold strings only, so a value
  compared with a tag is written as its text.
-/
def ofValue (isTag : Bool) : Value → Literal
  | .array items => .array (ofValues isTag items)
  | .int n =>
      if isTag then .string (Value.int n).text else .integer n
  | .uint n =>
      if isTag then .string (Value.uint n).text else .unsigned n
  | .bool b =>
      if isTag then .string (Value.bool b).text else .boolean b
  | .float x =>
      if isTag then .string (Value.float x).text else .float x
  | .string s => .string s
  | .time t =>
      if isTag then .string (Value.time t).text
      else .time t.instant
  | .span d =>
      if isTag then .string (Value.span d).text
      else .duration d.micros
  | .other s => .string s

/- The literals of a list of values. -/
def ofValues (isTag : Bool) : List Value → List Literal
  | [] => []
  | v :: rest => ofValue isTag v :: ofValues isTag rest

end

/-
  A floating point literal has a point; the values without
  digits are converted from their names.
-/
def floatText (x : Binary64) : String :=
  if x.isNaN then "float(v: \"NaN\")"
  else if x.isInfinite then
    "float(v: \"" ++ (if x.isNegative then "-" else "+") ++ "Inf\")"
  else
    let digits := x.plain
    if digits.toList.contains '.' then digits else digits ++ ".0"

mutual

/- The source text of a literal. -/
def text : Literal → String
  | .integer n => Numeral.ofInt n.toInt
  | .unsigned n => Numeral.ofNat n.toNat
  | .boolean b => Value.boolText b
  | .float x => floatText x
  | .string s => Flux.quote s
  | .time t => t.text
  | .duration micros => Numeral.ofInt micros.toInt ++ "us"
  | .array items => "[" ++ ", ".intercalate (texts items) ++ "]"

/- The source texts of a list of literals. -/
def texts : List Literal → List String
  | [] => []
  | l :: rest => text l :: texts rest

end

end Literal

end TypedFlux
