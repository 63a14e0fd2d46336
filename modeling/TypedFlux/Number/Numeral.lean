import TypedFlux.Number.Shortest

/-
  Numerals: numbers read from and written as decimal text.

  Key definitions include:
    * `Numeral.ofNat`, `Numeral.ofInt`
    * `Numeral.int?`, `Numeral.int64?`
    * `Numeral.decimal?`, `Numeral.binary64?`
    * `FloatFormat`
    * `Binary64.plain`, `Binary64.diagnostic`
-/

namespace TypedFlux

namespace Numeral

------------------------------------------------------------
-- Writing Integers
------------------------------------------------------------

/- The decimal digits of a natural number. -/
def ofNat (n : Nat) : String :=
  String.ofList (Nat.toDigits 10 n)

/- The decimal digits of an integer, after its sign. -/
def ofInt (n : Int) : String :=
  if n < 0 then "-" ++ ofNat n.natAbs else ofNat n.natAbs

/-
  A natural number in decimal digits, with zeros before it up
  to a width.
-/
def padded
    (width : Nat)
    (n : Nat) : String :=
  let digits := Nat.toDigits 10 n
  String.ofList
    (List.replicate (width - digits.length) '0' ++ digits)

------------------------------------------------------------
-- Reading Integers
------------------------------------------------------------

/- The number that a list of decimal digits stands for. -/
def ofDigits (cs : List Char) : Nat :=
  Nat.ofDigitChars 10 cs 0

/- The value of a hexadecimal digit in either case. -/
def hexValue (c : Char) : Nat :=
  if c.isDigit then c.toNat - '0'.toNat
  else c.toLower.toNat - 'a'.toNat + 10

/- The number that hexadecimal digits stand for in a base. -/
def ofBase
    (base : Nat)
    (cs : List Char) : Nat :=
  cs.foldl (fun n c => n * base + hexValue c) 0

/- Take a sign off the front; true is the minus sign. -/
def splitSign : List Char → Bool × List Char
  | '-' :: cs => (true, cs)
  | '+' :: cs => (false, cs)
  | cs => (false, cs)

/- The number of a nonempty list of digits and nothing else. -/
def nat? (cs : List Char) : Option Nat :=
  if cs.isEmpty || !cs.all Char.isDigit then none
  else some (ofDigits cs)

/- The integer of an optional sign and digits. -/
def int? (cs : List Char) : Option Int :=
  let (negative, body) := splitSign cs
  (nat? body).map fun n =>
    if negative then -(n : Int) else n

/- An integer of the signed 64-bit range. -/
def toInt64? (n : Int) : Option Int64 :=
  if -0x8000000000000000 ≤ n ∧ n ≤ 0x7fffffffffffffff then
    some (Int64.ofInt n)
  else none

/- A numeral whose integer lies in the signed 64-bit range. -/
def int64? (s : String) : Option Int64 :=
  (int? s.toList).bind toInt64?

------------------------------------------------------------
-- Reading Decimals
------------------------------------------------------------

/- The power of ten behind the mark `e` or `E`, if any. -/
def exponent? : List Char → Option Int
  | [] => some 0
  | 'e' :: cs => int? cs
  | 'E' :: cs => int? cs
  | _ => none

/-
  An unsigned decimal: digits, a fraction and a power of ten,
  where a digit stands before the point or behind it.
-/
def decimal? (cs : List Char) : Option Decimal :=
  let whole := cs.takeWhile Char.isDigit
  let rest := cs.dropWhile Char.isDigit
  let (fraction, rest) :=
    match rest with
    | '.' :: rest =>
        (rest.takeWhile Char.isDigit, rest.dropWhile Char.isDigit)
    | rest => ([], rest)
  if whole.isEmpty && fraction.isEmpty then none
  else
    (exponent? rest).map fun e =>
      ⟨ofDigits (whole ++ fraction), e - fraction.length⟩

/-
  The nearest number to a decimal.  Decimals whose first digit
  lies far outside the format's range need no division.
-/
def round
    (negative : Bool)
    (d : Decimal) : Binary64 :=
  if d.coefficient == 0 || d.order < -330 then
    Binary64.zero negative
  else if 310 < d.order then Binary64.infinity negative
  else
    Binary64.ofRatio negative
      (d.coefficient * tenTo d.exponent.toNat)
      (tenTo (-d.exponent).toNat)

/-
  A signed numeral of a floating point number.  The names of
  the infinities and of not-a-number are read in any case.
-/
def binary64? (s : String) : Option Binary64 :=
  let (negative, body) := splitSign s.toList
  let name := String.ofList (body.map Char.toLower)
  if name == "inf" || name == "infinity" then
    some (Binary64.infinity negative)
  else if name == "nan" then some (Binary64.nan negative)
  else (decimal? body).map (round negative)

end Numeral

------------------------------------------------------------
-- Writing Floating Point Numbers
------------------------------------------------------------

/-
  How shortest digits are laid out: whether a whole number
  keeps a zero behind its point, and which orders of magnitude
  are written without a power of ten.
-/
structure FloatFormat where
  pointed : Bool
  positional : Int → Bool

namespace FloatFormat

/- Digits placed around the point. -/
def placed
    (format : FloatFormat)
    (d : Decimal) : String :=
  let digits := d.digits
  let zeros := fun n : Int => List.replicate n.toNat '0'
  let point := d.order + 1
  if 0 ≤ d.exponent then
    String.ofList (digits ++ zeros d.exponent)
      ++ (if format.pointed then ".0" else "")
  else if 0 < point then
    String.ofList (digits.take point.toNat) ++ "."
      ++ String.ofList (digits.drop point.toNat)
  else
    "0." ++ String.ofList (zeros (-point) ++ digits)

/- Digits before a power of ten. -/
def scientific (d : Decimal) : String :=
  let rest := d.digits.drop 1
  String.ofList (d.digits.take 1)
    ++ (if rest.isEmpty then "" else "." ++ String.ofList rest)
    ++ "e" ++ Numeral.ofInt d.order

/- The text of a number in a format. -/
def write
    (format : FloatFormat)
    (x : Binary64) : String :=
  if x.isNaN then "NaN"
  else
    let sign := if x.isNegative then "-" else ""
    if x.isInfinite then sign ++ "inf"
    else if x.significand == 0 then
      sign ++ (if format.pointed then "0.0" else "0")
    else
      let d := x.shortest
      sign ++
        (if format.positional d.order then format.placed d
         else scientific d)

end FloatFormat

namespace Binary64

/- Plain text never has a power of ten nor an added zero. -/
def plain : Binary64 → String :=
  FloatFormat.write ⟨false, fun _ => true⟩

/-
  Diagnostic text always shows a point or a power of ten; the
  power of ten below 0.0001 and from ten to the sixteenth on.
-/
def diagnostic : Binary64 → String :=
  FloatFormat.write ⟨true, fun k => -5 < k && k < 16⟩

end Binary64

end TypedFlux
