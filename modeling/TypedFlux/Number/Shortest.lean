import TypedFlux.Number.Binary64

/-
  The shortest decimal that reads back as a number.

  The reals that round to `m * 2 ^ q` form an interval around
  it.  Its ends belong to it exactly when `m` is even, and it
  is half as wide below a power of two.  For one digit, two
  digits and so on, the two neighbours of the number on the
  decimal grid are tested; the first grid with a neighbour in
  the interval gives the digits.

  Key definitions include:
    * `Interval`
    * `Interval.ofMagnitude`
    * `Interval.tryDigits`
    * `Decimal`
    * `Binary64.shortest`
-/

namespace TypedFlux

------------------------------------------------------------
-- Rounding Intervals
------------------------------------------------------------

/-
  An interval of positive reals around a value.  All three
  numbers are numerators over one denominator.
-/
structure Interval where
  low : Nat
  value : Nat
  high : Nat
  den : Nat
  closed : Bool

namespace Interval

/-
  The reals that round to `m * 2 ^ q`.  `narrow` says that the
  next number below is only half as far away as the one above.
-/
def ofMagnitude
    (m : Nat)
    (q : Int)
    (narrow : Bool) : Interval :=
  let up := (q - 2).toNat
  let down := (2 - q).toNat
  { low := (4 * m - (if narrow then 1 else 2)) * twoTo up
    value := 4 * m * twoTo up
    high := (4 * m + 2) * twoTo up
    den := twoTo down
    closed := m % 2 == 0 }

/- Whether the ratio `num / den` lies in the interval. -/
def holds
    (i : Interval)
    (num den : Nat) : Bool :=
  if i.closed then
    i.low * den ≤ num * i.den && num * i.den ≤ i.high * den
  else
    i.low * den < num * i.den && num * i.den < i.high * den

/- Multiply every number of the interval by a power of ten. -/
def scaled
    (i : Interval)
    (p : Int) : Interval :=
  let up := tenTo p.toNat
  { i with
    low := i.low * up
    value := i.value * up
    high := i.high * up
    den := i.den * tenTo (-p).toNat }

/-
  The integer in the interval that is nearest to its value,
  among the two neighbours of the value.  Of two equally near
  ones it is the upper.
-/
def neighbour? (i : Interval) : Option Nat :=
  let d := i.value / i.den
  let r := i.value % i.den
  match i.holds d 1, i.holds (d + 1) 1 with
  | true, true =>
      some (if 2 * r < i.den then d else d + 1)
  | true, false => some d
  | false, true => some (d + 1)
  | false, false => none

end Interval

------------------------------------------------------------
-- Decimals
------------------------------------------------------------

/- The number `coefficient * 10 ^ exponent`. -/
structure Decimal where
  coefficient : Nat
  exponent : Int
deriving DecidableEq

namespace Decimal

/- The digits of the coefficient. -/
def digits (d : Decimal) : List Char :=
  Nat.toDigits 10 d.coefficient

/- The power of ten of the first digit. -/
def order (d : Decimal) : Int :=
  d.exponent + d.digits.length - 1

/- Move zeros at the end of the coefficient to the exponent. -/
def normalize (d : Decimal) : Decimal :=
  let zeros := (d.digits.reverse.takeWhile (· == '0')).length
  if d.coefficient == 0 then d
  else
    ⟨d.coefficient / tenTo zeros, d.exponent + zeros⟩

end Decimal

------------------------------------------------------------
-- Shortest Digits
------------------------------------------------------------

namespace Interval

/- The power of ten of the value's first digit. -/
def order (i : Interval) : Int :=
  let whole := i.value / i.den
  if whole == 0 then
    -- `value * 10 ^ k` has one more digit than `den` at most
    let k := (Nat.toDigits 10 i.den).length
      - (Nat.toDigits 10 i.value).length
    if i.den ≤ i.value * tenTo k then -(k : Int)
    else -(k : Int) - 1
  else ((Nat.toDigits 10 whole).length : Int) - 1

/-
  Search the grids of `n`, `n + 1`, ... digits for the first
  one with a neighbour of the value in the interval.
-/
def tryDigits
    (i : Interval)
    (order : Int)
    (n : Nat) : Nat → Decimal
  | 0 => ⟨i.value / i.den, 0⟩
  | tries + 1 =>
      let p : Int := order + 1 - n
      match (i.scaled (-p)).neighbour? with
      | some d => Decimal.normalize ⟨d, p⟩
      | none => tryDigits i order (n + 1) tries

end Interval

namespace Binary64

/-
  The shortest decimal that reads back as the magnitude of a
  finite nonzero number, nearest to it among the shortest.
  Seventeen digits always suffice.
-/
def shortest (x : Binary64) : Decimal :=
  let narrow := x.fractionField == 0 && 1 < x.exponentField
  let i := Interval.ofMagnitude x.significand x.scale narrow
  i.tryDigits i.order 1 17

end Binary64

end TypedFlux
