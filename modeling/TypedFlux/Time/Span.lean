import TypedFlux.Number.Numeral

/-
  Signed spans of time.

  A span is a whole number of nanoseconds that is at most as
  long as the largest 64-bit number of milliseconds, in either
  direction.  So every span has an opposite.

  Key definitions include:
    * `Span`
    * `Span.ofNanos?`
    * `Span.ofMicros`
    * `Span.neg`
    * `Span.micros`
-/

namespace TypedFlux

/- The longest span, in nanoseconds. -/
def Span.limit : Nat :=
  0x7fffffffffffffff * 1000000

/- A span of time in nanoseconds. -/
structure Span where
  total : Int
  bounded : total.natAbs ≤ Span.limit
deriving DecidableEq

namespace Span

/- A number of nanoseconds as a span, if not too long. -/
def ofNanos? (n : Int) : Option Span :=
  if hBounded : n.natAbs ≤ limit then some ⟨n, hBounded⟩
  else none

/- The longest span. -/
def longest : Span :=
  ⟨limit, by decide⟩

/- A number of microseconds as a span. -/
def ofMicros (n : Int64) : Span :=
  ⟨n.toInt * 1000, by
    have hLow := n.le_toInt
    have hHigh := n.toInt_lt
    unfold limit
    omega⟩

/- The span in the other direction. -/
def neg (d : Span) : Span :=
  ⟨-d.total, by
    have hBounded := d.bounded
    omega⟩

/-
  Whole microseconds toward zero.  Past the 64-bit range they
  are counted from whole milliseconds, and past the range of
  these they stay at its end.
-/
def micros (d : Span) : Int64 :=
  match Numeral.toInt64? (d.total.tdiv 1000) with
  | some n => n
  | none =>
      match Numeral.toInt64? (d.total.tdiv 1000000 * 1000) with
      | some n => n
      | none =>
          if d.total < 0 then Int64.minValue else Int64.maxValue

/- Whole seconds downward and the nanoseconds above them. -/
def diagnostic (d : Span) : String :=
  "TimeDelta \x7b secs: " ++ Numeral.ofInt (d.total / 1000000000)
    ++ ", nanos: " ++ Numeral.ofInt (d.total % 1000000000) ++ " \x7d"

end Span

end TypedFlux
