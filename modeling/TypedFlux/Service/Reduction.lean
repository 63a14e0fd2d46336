import TypedFlux.Flux.Pipeline
import TypedFlux.Service.Record

/-
  Results that are reduced from all rows.

  The store counts the rows of each table.  The counts of all
  tables are added up here.

  Key definitions include:
    * `Reduction.total`
    * `Reduction.reduce`
    * `Reduction.reduceRecords`
-/

namespace TypedFlux

namespace Reduction

/- The sum, or the end of the range that it has passed. -/
def saturatingAdd (a b : Int64) : Int64 :=
  let sum := a.toInt + b.toInt
  if Int64.maxValue.toInt < sum then Int64.maxValue
  else if sum < Int64.minValue.toInt then Int64.minValue
  else Int64.ofInt sum

/- Counts added up one after the other. -/
def total (sum : Int64) : List Value → Except QueryError Int64
  | [] => .ok sum
  | v :: rest =>
      match v.toInt64? with
      | some n => total (saturatingAdd sum n) rest
      | none => .error (.notCount v)

/- One value of many; without a reduction, all of them. -/
def reduce
    (reduction? : Option Reduction)
    (values : List Value) : Except QueryError Value :=
  match reduction? with
  | some .count => (total 0 values).map .int
  | none => .ok (.array values)

/- Reduce the result column of all rows. -/
def reduceRecords
    (reduction? : Option Reduction)
    (records : List Record) : Except QueryError Value := do
  let values ← records.mapM (Record.cell Pipeline.resultColumn)
  reduce reduction? values

end Reduction

end TypedFlux
