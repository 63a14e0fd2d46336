import TypedFlux.Text.Blank
import TypedFlux.Text.Quoted
import TypedFlux.Time.Span
import TypedFlux.Time.Timestamp

/-
  Constant values of queries and cells of result records.

  Key definitions include:
    * `Value`
    * `Value.typeName`
    * `Value.text`
    * `Value.diagnostic`
    * `Value.toInt64?`
    * `Value.toBinary64?`
    * `Value.string?`
    * `Value.instant?`
-/

namespace TypedFlux

------------------------------------------------------------
-- Values
------------------------------------------------------------

/-
  A constant.  `other` carries a value of no other kind by its
  text.
-/
inductive Value where
  | bool (b : Bool)
  | int (n : Int64)
  | uint (n : UInt64)
  | float (x : Binary64)
  | string (s : String)
  | time (t : Timestamp)
  | span (d : Span)
  | array (items : List Value)
  | other (s : String)
deriving Inhabited

namespace Value

------------------------------------------------------------
-- Values From Machine Numbers
------------------------------------------------------------

/-
  A count of items.  Counts past the signed range wrap around
  to negative numbers.
-/
def ofCount (n : UInt64) : Value :=
  .int n.toInt64

/- A number of the shorter binary format. -/
def ofBinary32 (bits : UInt32) : Value :=
  .float (Binary64.ofBinary32 bits)

/- An elapsed time; the longest span stands for a longer one. -/
def ofElapsed
    (seconds nanos : Nat) : Value :=
  .span ((Span.ofNanos? (seconds * 1000000000 + nanos)).getD
    Span.longest)

/- A point in time seen in UTC. -/
def ofInstant (t : Instant) : Value :=
  .time (Timestamp.ofInstant t)

------------------------------------------------------------
-- Text
------------------------------------------------------------

/- The name of a value's kind. -/
def typeName : Value → String
  | .bool _ => "bool"
  | .int _ => "int"
  | .uint _ => "uint"
  | .float _ => "float"
  | .string _ => "string"
  | .time _ => "datetime"
  | .span _ => "duration"
  | .array _ => "array"
  | .other _ => "other"

/- A truth value by its name. -/
def boolText (b : Bool) : String :=
  if b then "true" else "false"

mutual

/-
  The plain text of a value.  Times are seen in UTC and spans
  counted in microseconds.
-/
def text : Value → String
  | .bool b => boolText b
  | .int n => Numeral.ofInt n.toInt
  | .uint n => Numeral.ofNat n.toNat
  | .float x => x.plain
  | .string s => s
  | .time t => t.instant.text
  | .span d => Numeral.ofInt d.micros.toInt ++ "us"
  | .array items => "[" ++ ", ".intercalate (texts items) ++ "]"
  | .other s => s

/- The plain texts of a list of values. -/
def texts : List Value → List String
  | [] => []
  | v :: rest => text v :: texts rest

end

mutual

/- The text of a value in a diagnostic, under its kind. -/
def diagnostic : Value → String
  | .bool b => "Bool(" ++ boolText b ++ ")"
  | .int n => "Int(" ++ Numeral.ofInt n.toInt ++ ")"
  | .uint n => "UInt(" ++ Numeral.ofNat n.toNat ++ ")"
  | .float x => "Float(" ++ x.diagnostic ++ ")"
  | .string s => "String(" ++ Text.quoted s ++ ")"
  | .time t => "DateTime(" ++ t.diagnostic ++ ")"
  | .span d => "Duration(" ++ d.diagnostic ++ ")"
  | .array items =>
      "Array([" ++ ", ".intercalate (diagnostics items) ++ "])"
  | .other s => "Other(" ++ Text.quoted s ++ ")"

/- The diagnostic texts of a list of values. -/
def diagnostics : List Value → List String
  | [] => []
  | v :: rest => diagnostic v :: diagnostics rest

end

------------------------------------------------------------
-- Views
------------------------------------------------------------

/-
  The integer a value stands for: numbers within the signed
  range, the integer part of finite numbers, truth values as
  zero and one, and texts that hold a numeral.
-/
def toInt64? : Value → Option Int64
  | .int n => some n
  | .uint n => Numeral.toInt64? n.toNat
  | .float x => x.toInt64?
  | .bool b => some (if b then 1 else 0)
  | .string s | .other s => Numeral.int64? (Text.trim s)
  | _ => none

/-
  The floating point number nearest to a value: any number,
  and texts that hold a numeral.
-/
def toBinary64? : Value → Option Binary64
  | .int n => some (Binary64.ofInt n.toInt)
  | .uint n => some (Binary64.ofInt n.toNat)
  | .float x => some x
  | .string s | .other s => Numeral.binary64? (Text.trim s)
  | _ => none

/- The text of a value that is carried as text. -/
def string? : Value → Option String
  | .string s | .other s => some s
  | _ => none

/- The point in time of a time, or of a string that reads as one. -/
def instant? : Value → Option Instant
  | .time t => some t.instant
  | .string s => (Timestamp.read? s).map Timestamp.instant
  | _ => none

/- Whether a value is a floating point number. -/
def isFloat : Value → Bool
  | .float _ => true
  | _ => false

end Value

end TypedFlux
