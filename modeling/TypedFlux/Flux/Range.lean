import TypedFlux.Flux.Journal
import TypedFlux.Flux.Part
import TypedFlux.Flux.Pipeline

/-
  The range of times of a script.

  A comparison of a row's time with a constant says nothing
  about the other columns, so it bounds the range in place of a
  condition in the filter.

  Key definitions include:
    * `BinaryOp.bounds`
    * `Marks`
    * `Range`
    * `Range.assign`
    * `Range.restrict`
-/

namespace TypedFlux

------------------------------------------------------------
-- Bounds of a Comparison
------------------------------------------------------------

/-
  The bounds that a comparison sets.  `timeAtLeft` if the time
  is its left operand.
-/
def BinaryOp.bounds
    (op : BinaryOp)
    (timeAtLeft : Bool) : Except QueryError (List Bound) :=
  match op with
  | .equal => .ok [.start, .stop]
  | .lessThan | .lessThanOrEqual =>
      .ok [if timeAtLeft then .stop else .start]
  | .greaterThan | .greaterThanOrEqual =>
      .ok [if timeAtLeft then .start else .stop]
  | op => .error (.timeComparison op)

/- The bound, its side and the operator of a time comparison. -/
def Part.timeBound? : Part → Option (Part × Bool × BinaryOp)
  | .timeBound none (some bound) op => some (bound, true, op)
  | .timeBound (some bound) none op => some (bound, false, op)
  | _ => none

------------------------------------------------------------
-- Setting Bounds
------------------------------------------------------------

/- Which bounds a query has set. -/
structure Marks where
  start : Bool := false
  stop : Bool := false
deriving DecidableEq

/- A pipeline with the bounds that were set in it. -/
structure Range where
  marks : Marks
  pipeline : Pipeline
deriving DecidableEq

namespace Range

/- The bound that is replaced, if one was set. -/
def previous?
    (r : Range) : Bound → Option String
  | .start =>
      if r.marks.start then some r.pipeline.start else none
  | .stop => if r.marks.stop then r.pipeline.stop? else none

/- Set a bound. -/
def set
    (r : Range)
    (assignment : String) : Bound → Range
  | .start =>
      ⟨{ r.marks with start := true },
        r.pipeline.setStart assignment⟩
  | .stop =>
      ⟨{ r.marks with stop := true },
        r.pipeline.setStop assignment⟩

/- The events of setting a bound. -/
def events
    (r : Range)
    (assignment : String)
    (op : BinaryOp)
    (bound : Bound) : List Event :=
  (match r.previous? bound with
    | some previous => [.overwritten bound previous assignment]
    | none => [])
    ++ [.assigned bound assignment op]

/- Set bounds one after the other; a later one replaces an earlier. -/
def assign
    (r : Range)
    (assignment : String)
    (op : BinaryOp) : List Bound → Range × List Event
  | [] => (r, [])
  | bound :: rest =>
      let later := (r.set assignment bound).assign assignment op rest
      (later.1, r.events assignment op bound ++ later.2)

/- Narrow the range by a comparison of the time. -/
def restrict
    (r : Range)
    (part : Part) : Except QueryError (Range × List Event) :=
  match part.timeBound? with
  | none => .error (.unsupported part.diagnostic "TimeRange")
  | some (bound, timeAtLeft, op) => do
      let bounds ← op.bounds timeAtLeft
      let assignment ← bound.text
      .ok (r.assign assignment op bounds)

end Range

end TypedFlux
