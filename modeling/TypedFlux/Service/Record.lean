import TypedFlux.Error

/-
  Rows of a reply.

  Key definitions include:
    * `Record`
    * `Record.get?`, `Record.take`, `Record.put`
    * `Record.cell`
-/

namespace TypedFlux

/- A row of a table: its cells by column, each column once. -/
structure Record where
  table : Nat
  cells : List (String × Value)

namespace Record

/- The cell in a column. -/
def get?
    (r : Record)
    (column : String) : Option Value :=
  r.cells.lookup column

/- The row without a column. -/
def erase
    (r : Record)
    (column : String) : Record :=
  { r with cells := r.cells.filter (·.1 != column) }

/- The cell in a column, and the row without it. -/
def take
    (r : Record)
    (column : String) : Option Value × Record :=
  (r.get? column, r.erase column)

/- The row with a cell added or replaced. -/
def put
    (r : Record)
    (column : String)
    (value : Value) : Record :=
  { r with cells := (r.erase column).cells ++ [(column, value)] }

/- The time of the row. -/
def time? (r : Record) : Option Instant :=
  (r.get? "_time").bind Value.instant?

/- The measurement of the row. -/
def measurement? (r : Record) : Option String :=
  (r.get? "_measurement").bind Value.string?

/- The measured value. -/
def value? (r : Record) : Option Value :=
  r.get? "_value"

/- The measured value, which has to be there. -/
def value (r : Record) : Except QueryError Value :=
  match r.value? with
  | some v => .ok v
  | none => .error (.missingValue r.table)

/- The cell in a column, which has to be there. -/
def cell
    (column : String)
    (r : Record) : Except QueryError Value :=
  match r.get? column with
  | some v => .ok v
  | none => .error (.missingColumn r.table column)

end Record

end TypedFlux
