import TypedFlux.Flux.Literal

/-
  The pipeline of a script.

  Whatever is asked of a query has its place among the stages:
  source, range, pivot, filter, sorts, limit, tail and at last
  a reduction.

  Key definitions include:
    * `Reduction`
    * `Pipeline`
    * `Pipeline.stages`
    * `Pipeline.text`
-/

namespace TypedFlux

------------------------------------------------------------
-- Pipelines
------------------------------------------------------------

/- How rows become one value. -/
inductive Reduction where
  | count
deriving DecidableEq, Repr

/- A column to sort by; `descending` is a text. -/
structure SortColumn where
  column : String
  descending : String
deriving DecidableEq

/-
  What the stages of a pipeline say.  Bounds, counts and the
  bucket are texts, as a rule the names of variables.
-/
structure Pipeline where
  bucket : String
  start : String
  stop? : Option String := none
  limit? : Option String := none
  offset? : Option String := none
  tail? : Option String := none
  filters : List String := []
  sorts : List SortColumn := []
  reduction? : Option Reduction := none
deriving DecidableEq

namespace Pipeline

------------------------------------------------------------
-- Additions
------------------------------------------------------------

/- Begin the range elsewhere. -/
def setStart
    (p : Pipeline)
    (bound : String) : Pipeline :=
  { p with start := bound }

/- End the range elsewhere. -/
def setStop
    (p : Pipeline)
    (bound : String) : Pipeline :=
  { p with stop? := some bound }

/- Keep only a number of rows. -/
def setLimit
    (p : Pipeline)
    (count : String) : Pipeline :=
  { p with limit? := some count }

/- Leave out a number of rows. -/
def setOffset
    (p : Pipeline)
    (count : String) : Pipeline :=
  { p with offset? := some count }

/- Keep only a number of rows from the end. -/
def setTail
    (p : Pipeline)
    (count : String) : Pipeline :=
  { p with tail? := some count }

/- Reduce the rows. -/
def setReduction
    (p : Pipeline)
    (reduction : Reduction) : Pipeline :=
  { p with reduction? := some reduction }

/- Ask one more condition of the rows. -/
def addFilter
    (p : Pipeline)
    (condition : String) : Pipeline :=
  { p with filters := p.filters ++ [condition] }

/- Sort once more. -/
def addSort
    (p : Pipeline)
    (column descending : String) : Pipeline :=
  { p with sorts := p.sorts ++ [⟨column, descending⟩] }

------------------------------------------------------------
-- Stages
------------------------------------------------------------

/- The column in which a reduction leaves its result. -/
def resultColumn : String :=
  "linq_result_column"

/- An argument that may be absent. -/
def argument?
    (name : String) : Option String → List String
  | some value => [name ++ ": " ++ value]
  | none => []

/- A stage with its arguments. -/
def stage
    (name : String)
    (arguments : List String) : String :=
  name ++ "(" ++ ", ".intercalate arguments ++ ")"

/- One row for every time, with a column for every field. -/
def pivotStage : String :=
  "pivot(rowKey:[\"_time\"], columnKey: [\"_field\"], "
    ++ "valueColumn: \"_value\")"

/- All conditions at once. -/
def filterStages : List String → List String
  | [] => []
  | filters =>
      ["filter(fn: (r) => " ++ " and ".intercalate filters ++ ")"]

/- One sort. -/
def sortStage (s : SortColumn) : String :=
  "sort(columns: [" ++ Flux.quote s.column ++ "], desc: "
    ++ s.descending ++ ")"

/-
  The rows to keep.  A limit always has a number of rows, so an
  offset alone comes with the largest one.
-/
def limitStages : Option String → Option String → List String
  | none, none => []
  | limit?, offset? =>
      [stage "limit"
        (argument? "n"
            (some (limit?.getD (Numeral.ofInt Int64.maxValue.toInt)))
          ++ argument? "offset" offset?)]

/- The rows to keep from the end. -/
def tailStages : Option String → List String
  | none => []
  | some count => [stage "tail" (argument? "n" (some count))]

/- Rows are counted by a running count of which the last stays. -/
def reductionStages : Option Reduction → List String
  | none => []
  | some .count =>
      let column := "\"" ++ resultColumn ++ "\""
      ["stateCount(fn: (r) => true, column: " ++ column ++ ")",
        "last(column: " ++ column ++ ")",
        "keep(columns: [" ++ column ++ "])"]

/- All stages in their order. -/
def stages (p : Pipeline) : List String :=
  [stage "from" (argument? "bucket" (some p.bucket)),
    stage "range"
      (argument? "start" (some p.start)
        ++ argument? "stop" p.stop?),
    pivotStage]
    ++ filterStages p.filters
    ++ p.sorts.map sortStage
    ++ limitStages p.limit? p.offset?
    ++ tailStages p.tail?
    ++ reductionStages p.reduction?

/- The text of the pipeline. -/
def text (p : Pipeline) : String :=
  " |> ".intercalate p.stages

end Pipeline

end TypedFlux
