import TypedFlux.Column
import TypedFlux.Error
import TypedFlux.Flux.Literal

/-
  Parts of a predicate in Flux.

  A predicate becomes a tree of parts, which has a text unless
  it holds something that Flux cannot express.

  Key definitions include:
    * `StringFunction`
    * `Part`
    * `Part.text`
    * `Writing`
    * `Part.write`, `Part.appendTo`
    * `Part.diagnostic`
-/

namespace TypedFlux

------------------------------------------------------------
-- String Functions
------------------------------------------------------------

/- The functions that methods of strings stand for. -/
inductive StringFunction where
  | containsStr
  | hasPrefix
  | hasSuffix
  | replaceAll
  | toLower
  | toUpper
  | toString
deriving DecidableEq, Repr

namespace StringFunction

/- The function of a method, which may be written in two styles. -/
def ofMethod? : String → Option StringFunction
  | "Contains" | "contains" => some .containsStr
  | "StartsWith" | "starts_with" => some .hasPrefix
  | "EndsWith" | "ends_with" => some .hasSuffix
  | "Replace" | "replace" => some .replaceAll
  | "ToLower" | "to_lowercase" | "to_lower" => some .toLower
  | "ToUpper" | "to_uppercase" | "to_upper" => some .toUpper
  | "ToString" | "to_string" => some .toString
  | _ => none

/- The function with its package. -/
def fluxName : StringFunction → String
  | .containsStr => "strings.containsStr"
  | .hasPrefix => "strings.hasPrefix"
  | .hasSuffix => "strings.hasSuffix"
  | .replaceAll => "strings.replaceAll"
  | .toLower => "strings.toLower"
  | .toUpper => "strings.toUpper"
  | .toString => "string"

/- The names of the parameters; the first takes the receiver. -/
def parameters : StringFunction → List String
  | .containsStr => ["v", "substr"]
  | .hasPrefix => ["v", "prefix"]
  | .hasSuffix => ["v", "suffix"]
  | .replaceAll => ["v", "t", "u"]
  | .toLower | .toUpper | .toString => ["v"]

/- Whether the function is in the package `strings`. -/
def needsImport : StringFunction → Bool
  | .toString => false
  | _ => true

/- The name of the function in a diagnostic. -/
def name : StringFunction → String
  | .containsStr => "ContainsStr"
  | .hasPrefix => "HasPrefix"
  | .hasSuffix => "HasSuffix"
  | .replaceAll => "ReplaceAll"
  | .toLower => "ToLower"
  | .toUpper => "ToUpper"
  | .toString => "ToString"

end StringFunction

------------------------------------------------------------
-- Parts
------------------------------------------------------------

/-
  A part of a predicate.  `indexed` is a column looked up by a
  key, `timeBound` compares the time of a row with the bound on
  the one side that is present, and `blank` stands for what has
  no text.
-/
inductive Part where
  | literal (variableName : String)
  | column (role : Role) (name : String)
  | binary (op : BinaryOp) (left right : Part)
  | call (function : StringFunction) (args : List Part)
  | indexed (key : Value) (accessor : String)
  | timeBound (left right : Option Part) (op : BinaryOp)
  | blank

namespace Part

/- The cell of a row in a column. -/
def accessor (column : String) : String :=
  "r[" ++ Flux.quote column ++ "]"

/-
  The column of a member.  The measurement and the time have
  columns of their own.
-/
def ofColumn
    (role : Role)
    (column : String) : Part :=
  match role with
  | .measurement => .column role "_measurement"
  | .timestamp => .column role "_time"
  | .tag | .field => .column role column

/- Whether a part is the time of a row. -/
def isTimeColumn : Part → Bool
  | .column .timestamp _ => true
  | _ => false

/- Whether a part is a named constant. -/
def isLiteral : Part → Bool
  | .literal _ => true
  | _ => false

------------------------------------------------------------
-- Text
------------------------------------------------------------

/- The cell with the time of a row. -/
def timeAccessor : String :=
  accessor "_time"

/- An operator between two texts. -/
def operation
    (left token right : String) : String :=
  "(" ++ left ++ " " ++ token ++ " " ++ right ++ ")"

mutual

/- The Flux text of a part, if all of it has one. -/
def text : Part → Except QueryError String
  | .literal variableName => .ok variableName
  | .column _ name => .ok (accessor name)
  | .binary op left right =>
      match op.token? with
      | none => .error (.unsupported op.name "Binary")
      | some token => do
          let left ← text left
          let right ← text right
          .ok (operation left token right)
  | .call function args => do
      let args ← argTexts function.parameters args
      .ok (function.fluxName ++ "(" ++ ", ".intercalate args ++ ")")
  | .indexed _ accessor => .ok accessor
  | .timeBound (some bound) none op =>
      match op.token? with
      | none => .error (.unsupported op.name "Binary")
      | some token => do
          let bound ← text bound
          .ok (operation bound token timeAccessor)
  | .timeBound none (some bound) op =>
      match op.token? with
      | none => .error (.unsupported op.name "Binary")
      | some token => do
          let bound ← text bound
          .ok (operation timeAccessor token bound)
  | .timeBound _ _ op =>
      .error (.unsupported op.name "TimeRange")
  | .blank =>
      .error (.unsupported "<untranslated node>" "NoOp")

/- Arguments under the names of their parameters. -/
def argTexts :
    List String → List Part → Except QueryError (List String)
  | parameter :: parameters, arg :: args => do
      let first ← text arg
      let rest ← argTexts parameters args
      .ok ((parameter ++ ": " ++ first) :: rest)
  | _, _ => .ok []

end

end Part

------------------------------------------------------------
-- Buffers
------------------------------------------------------------

/-
  A step that writes to a buffer.  What it wrote stays in the
  buffer when it fails later.
-/
abbrev Writing :=
  ExceptT QueryError (StateM String)

namespace Writing

/- Write a text. -/
def put (s : String) : Writing Unit :=
  modify (· ++ s)

/-
  Write to a new buffer and return it.  The buffer at hand stays
  as it is.
-/
def aside (step : Writing Unit) : Writing String :=
  ExceptT.mk fun buffer =>
    let (result, written) := step ""
    (result.map fun _ => written, buffer)

/-
  Write between parentheses.  Nothing is written unless all
  between them can be.
-/
def enclosed
    (opening : String)
    (step : Writing Unit) : Writing Unit := do
  let written ← aside step
  put opening
  put written
  put ")"

/- Write an operator between its operands. -/
def operation
    (op : BinaryOp)
    (left right : Writing Unit) : Writing Unit :=
  match op.token? with
  | none => throw (.unsupported op.name "Binary")
  | some token =>
      enclosed "(" do
        left
        put " "
        put token
        put " "
        right

end Writing

namespace Part

open Writing

mutual

/- Write the text of a part. -/
def write : Part → Writing Unit
  | .literal variableName => put variableName
  | .column _ name => put (accessor name)
  | .binary op left right =>
      Writing.operation op (write left) (write right)
  | .call function args =>
      enclosed (function.fluxName ++ "(")
        (writeArgs "" function.parameters args)
  | .indexed _ accessor => put accessor
  | .timeBound (some bound) none op =>
      Writing.operation op (write bound) (put timeAccessor)
  | .timeBound none (some bound) op =>
      Writing.operation op (put timeAccessor) (write bound)
  | .timeBound _ _ op =>
      throw (.unsupported op.name "TimeRange")
  | .blank =>
      throw (.unsupported "<untranslated node>" "NoOp")

/- Write arguments, with a text in front of the first. -/
def writeArgs
    (lead : String) :
    List String → List Part → Writing Unit
  | parameter :: parameters, arg :: args => do
      put lead
      put parameter
      put ": "
      write arg
      writeArgs ", " parameters args
  | _, _ => return

end

/- Write a part behind what is in a buffer. -/
def appendTo
    (part : Part)
    (buffer : String) : Except QueryError Unit × String :=
  part.write buffer

------------------------------------------------------------
-- Diagnostics
------------------------------------------------------------

mutual

/- The structure of a part, as text. -/
def diagnostic : Part → String
  | .literal variableName =>
      "LiteralRef \x7b name: " ++ Text.quoted variableName ++ " \x7d"
  | .column role name =>
      "ColumnRef \x7b kind: " ++ role.diagnostic ++ ", name: "
        ++ Text.quoted name ++ " \x7d"
  | .binary op left right =>
      "BinaryOp \x7b kind: " ++ op.name ++ ", left: "
        ++ diagnostic left ++ ", right: " ++ diagnostic right
        ++ " \x7d"
  | .call function args =>
      "StringCall \x7b function: " ++ function.name ++ ", args: ["
        ++ ", ".intercalate (diagnostics args) ++ "] \x7d"
  | .indexed key accessor =>
      "CompositeAssignment \x7b value: " ++ key.diagnostic
        ++ ", rendered_assignment: " ++ Text.quoted accessor
        ++ " \x7d"
  | .timeBound left right op =>
      "TimeRangeCandidate \x7b left: " ++ optionDiagnostic left
        ++ ", right: " ++ optionDiagnostic right ++ ", op: "
        ++ op.name ++ " \x7d"
  | .blank => "NoOp"

/- The structure of a part that may be absent. -/
def optionDiagnostic : Option Part → String
  | none => "None"
  | some part => "Some(" ++ diagnostic part ++ ")"

/- The structures of a list of parts. -/
def diagnostics : List Part → List String
  | [] => []
  | part :: rest => diagnostic part :: diagnostics rest

end

end Part

end TypedFlux
