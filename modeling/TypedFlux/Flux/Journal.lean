import TypedFlux.Expr

/-
  What happens while a script is drafted.

  Key definitions include:
    * `Bound`
    * `Severity`
    * `Event`
    * `Event.severity`, `Event.message`, `Event.fields`
-/

namespace TypedFlux

/- The two bounds of a range. -/
inductive Bound where
  | start
  | stop
deriving DecidableEq, Repr

/- The name of a bound. -/
def Bound.name : Bound → String
  | .start => "Start"
  | .stop => "Stop"

/- How much an event matters, least first. -/
inductive Severity where
  | trace
  | debug
  | info
  | warn
  | error
deriving DecidableEq, Repr

namespace Severity

/- The rank of a severity. -/
def rank : Severity → Nat
  | .trace => 0
  | .debug => 1
  | .info => 2
  | .warn => 3
  | .error => 4

/- The name of a severity. -/
def name : Severity → String
  | .trace => "TRACE"
  | .debug => "DEBUG"
  | .info => "INFO"
  | .warn => "WARN"
  | .error => "ERROR"

end Severity

/-
  An event: a constant got a name, a bound replaced an earlier
  one, a bound was set.
-/
inductive Event where
  | bound (name value : String)
  | overwritten (bound : Bound) (previous current : String)
  | assigned (bound : Bound) (assignment : String) (op : BinaryOp)

namespace Event

/- How much an event matters. -/
def severity : Event → Severity
  | .bound _ _ => .trace
  | .overwritten _ _ _ => .warn
  | .assigned _ _ _ => .debug

/- The event in words. -/
def message : Event → String
  | .bound _ _ => "bound query variable"
  | .overwritten .start _ _ => "range start overwritten"
  | .overwritten .stop _ _ => "range stop overwritten"
  | .assigned _ _ _ => "time range bound assigned"

/- The particulars of an event, by name. -/
def fields : Event → List (String × String)
  | .bound name value => [("name", name), ("value", value)]
  | .overwritten _ previous current =>
      [("previous", previous), ("current", current)]
  | .assigned target assignment op =>
      [("bound", target.name), ("assignment", assignment),
        ("op", op.name)]

end Event

end TypedFlux
