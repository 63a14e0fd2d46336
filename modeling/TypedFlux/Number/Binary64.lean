import TypedFlux.Number.Power

/-
  Floating point numbers of 64 bits, held by their bits.

  A finite number is a sign and a magnitude `m * 2 ^ q` with
  natural `m` and integer `q`.  Everything here is exact
  arithmetic on these; rounding is to the nearest number and
  to the even one between two equally near.

  Key definitions include:
    * `Binary64`
    * `Binary64.significand`
    * `Binary64.scale`
    * `Binary64.ofRatio`
    * `Binary64.ofInt`
    * `Binary64.truncate`
    * `Binary64.toInt64?`
    * `Binary64.ofBinary32`
-/

namespace TypedFlux

/- A number of the binary format of 64 bits. -/
structure Binary64 where
  bits : UInt64
deriving DecidableEq, Inhabited

namespace Binary64

------------------------------------------------------------
-- Fields
------------------------------------------------------------

/- The sign bit. -/
def isNegative (x : Binary64) : Bool :=
  twoTo 63 ≤ x.bits.toNat

/- The eleven exponent bits. -/
def exponentField (x : Binary64) : Nat :=
  x.bits.toNat / twoTo 52 % twoTo 11

/- The lower 52 bits. -/
def fractionField (x : Binary64) : Nat :=
  x.bits.toNat % twoTo 52

/- Not a number. -/
def isNaN (x : Binary64) : Bool :=
  x.exponentField == 2047 && x.fractionField != 0

/- One of the two infinities. -/
def isInfinite (x : Binary64) : Bool :=
  x.exponentField == 2047 && x.fractionField == 0

/- Neither an infinity nor not a number. -/
def isFinite (x : Binary64) : Bool :=
  x.exponentField != 2047

/- The natural `m` of the magnitude `m * 2 ^ q`. -/
def significand (x : Binary64) : Nat :=
  if x.exponentField == 0 then x.fractionField
  else twoTo 52 + x.fractionField

/- The integer `q` of the magnitude `m * 2 ^ q`. -/
def scale (x : Binary64) : Int :=
  if x.exponentField == 0 then -1074
  else (x.exponentField : Int) - 1075

------------------------------------------------------------
-- Special Numbers and Assembly
------------------------------------------------------------

/- Put a sign before the 63 bits of a magnitude. -/
def ofFields
    (negative : Bool)
    (magnitude : Nat) : Binary64 :=
  ⟨UInt64.ofNat ((if negative then twoTo 63 else 0) + magnitude)⟩

/- Zero with a sign. -/
def zero (negative : Bool) : Binary64 :=
  ofFields negative 0

/- Infinity with a sign. -/
def infinity (negative : Bool) : Binary64 :=
  ofFields negative (2047 * twoTo 52)

/- The quiet not-a-number. -/
def nan (negative : Bool) : Binary64 :=
  ofFields negative (2047 * twoTo 52 + twoTo 51)

/- The number with the other sign. -/
def neg (x : Binary64) : Binary64 :=
  ⟨x.bits ^^^ 0x8000000000000000⟩

/-
  The bits of the magnitude `m * 2 ^ q` for `m ≤ 2 ^ 53` and
  `-1074 ≤ q`, where `m < 2 ^ 52` only with `q = -1074`.
  Magnitudes past the largest number give infinity.
-/
def magnitudeBits
    (m : Nat)
    (q : Int) : Nat :=
  let (m, q) := if m == twoTo 53 then (twoTo 52, q + 1) else (m, q)
  if m < twoTo 52 then m
  else if 971 < q then 2047 * twoTo 52
  else (q + 1075).toNat * twoTo 52 + (m - twoTo 52)

------------------------------------------------------------
-- Rounding
------------------------------------------------------------

/-
  A quotient rounded to the nearest natural number, a half
  going to the even neighbour.
-/
def roundHalfEven
    (num : Nat)
    (den : Nat) : Nat :=
  let d := num / den
  let r := num % den
  if 2 * r < den then d
  else if den < 2 * r then d + 1
  else d + d % 2

/- The quotient of a ratio by a power of two, as a pair. -/
def ratioOver
    (num den : Nat)
    (q : Int) : Nat × Nat :=
  if q < 0 then (num * twoTo (-q).toNat, den)
  else (num, den * twoTo q.toNat)

/-
  The exponent that leaves 53 bits of a positive ratio before
  the point, or the least exponent for a smaller ratio.
-/
def ratioScale (num den : Nat) : Int :=
  let guess := (num.log2 : Int) - (den.log2 : Int) - 53
  let (a, b) := ratioOver num den guess
  let q := if twoTo 53 ≤ a / b then guess + 1 else guess
  max q (-1074)

/- The nearest number to a ratio with a sign. -/
def ofRatio
    (negative : Bool)
    (num den : Nat) : Binary64 :=
  if num == 0 then zero negative
  else
    let q := ratioScale num den
    let (a, b) := ratioOver num den q
    ofFields negative (magnitudeBits (roundHalfEven a b) q)

/- The nearest number to an integer. -/
def ofInt (n : Int) : Binary64 :=
  ofRatio (n < 0) n.natAbs 1

------------------------------------------------------------
-- Conversions
------------------------------------------------------------

/- The integer part of a finite number. -/
def truncate (x : Binary64) : Int :=
  let m :=
    if x.scale < 0 then x.significand / twoTo (-x.scale).toNat
    else x.significand * twoTo x.scale.toNat
  if x.isNegative then -(m : Int) else m

/-
  The integer part of a finite number, held at the ends of
  the 64-bit range.
-/
def toInt64? (x : Binary64) : Option Int64 :=
  if x.isFinite then
    some (Int64.ofInt
      (max (-0x8000000000000000)
        (min 0x7fffffffffffffff x.truncate)))
  else none

/- The number that 32 bits of the shorter format stand for. -/
def ofBinary32 (bits : UInt32) : Binary64 :=
  let n := bits.toNat
  let negative := twoTo 31 ≤ n
  let exponent := n / twoTo 23 % twoTo 8
  let fraction := n % twoTo 23
  if exponent == 255 then
    if fraction == 0 then infinity negative
    else ofFields negative
      (2047 * twoTo 52 + twoTo 51 + fraction % twoTo 22 * twoTo 29)
  else if exponent == 0 then
    ofRatio negative fraction (twoTo 149)
  else
    ofRatio negative
      ((twoTo 23 + fraction) * twoTo exponent) (twoTo 150)

end Binary64

end TypedFlux
