import TypedFlux.Flux.Literal

/-
  Named constants of a script.

  Every constant of a query becomes an option of the script
  with a name of its own, `p1`, `p2` and so on.

  Key definitions include:
    * `Variable`
    * `Variable.statement`
    * `Variables`
    * `Variables.add`
    * `Variables.markTag`
    * `Variables.statements`
-/

namespace TypedFlux

------------------------------------------------------------
-- Variables
------------------------------------------------------------

/- A constant under a name; `isTag` if compared with a tag. -/
structure Variable where
  name : String
  value : Value
  isTag : Bool

namespace Variable

/- The literal of the constant. -/
def literal (v : Variable) : Literal :=
  Literal.ofValue v.isTag v.value

/- The declaration in the script. -/
def statement (v : Variable) : String :=
  "option " ++ v.name ++ " = " ++ v.literal.text

end Variable

------------------------------------------------------------
-- Lists of Variables
------------------------------------------------------------

/- The variables of a script, in the order of their names. -/
abbrev Variables :=
  List Variable

namespace Variables

/- The name of the variable after `n` others. -/
def nameAfter (n : Nat) : String :=
  "p" ++ Numeral.ofNat (n + 1)

/- The name of the next variable. -/
def nextName (vs : Variables) : String :=
  nameAfter vs.length

/- Give a constant the next name. -/
def add
    (vs : Variables)
    (value : Value) : Variables :=
  vs ++ [⟨vs.nextName, value, false⟩]

/- Note that a variable is compared with a tag. -/
def markTag
    (vs : Variables)
    (name : String) : Variables :=
  vs.map fun v =>
    if v.name = name then { v with isTag := true } else v

/- The variable of a name. -/
def get?
    (vs : Variables)
    (name : String) : Option Variable :=
  vs.find? (·.name = name)

/- All declarations. -/
def statements (vs : Variables) : List String :=
  vs.map Variable.statement

end Variables

end TypedFlux
