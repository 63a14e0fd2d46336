import TypedFlux.Number.Numeral
import TypedFlux.Time.Calendar

/-
  Points in time, with and without an offset from UTC.

  A point in time is a number of seconds since 1970 and a
  fraction in nanoseconds.  A fraction of a whole second or
  more marks a leap second, which can only follow the last
  second of a minute.

  Key definitions include:
    * `Instant`
    * `Instant.text`
    * `Timestamp`
    * `Timestamp.read?`
    * `Timestamp.diagnostic`
-/

namespace TypedFlux

------------------------------------------------------------
-- Instants
------------------------------------------------------------

/-
  Whether a fraction may stand behind a second: below one
  second always, below two in a leap second.
-/
def ValidFraction
    (seconds : Int)
    (nanos : Nat) : Prop :=
  nanos < 1000000000 ∨
    (seconds % 60 = 59 ∧ nanos < 2000000000)

instance
    (seconds : Int)
    (nanos : Nat) :
    Decidable (ValidFraction seconds nanos) := by
  unfold ValidFraction
  infer_instance

/- A point in time. -/
structure Instant where
  seconds : Int
  nanos : Nat
  valid : ValidFraction seconds nanos
deriving DecidableEq

------------------------------------------------------------
-- Clock Text
------------------------------------------------------------

namespace Clock

/-
  A year in four digits; with its sign and at least four
  digits when it is below zero or past 9999.
-/
def yearText (year : Int) : String :=
  let digits := Numeral.padded 4 year.natAbs
  if year < 0 then "-" ++ digits
  else if 9999 < year then "+" ++ digits
  else digits

/- A fraction in as many groups of three digits as it needs. -/
def fractionText (nanos : Nat) : String :=
  if nanos == 0 then ""
  else if nanos % 1000000 == 0 then
    "." ++ Numeral.padded 3 (nanos / 1000000)
  else if nanos % 1000 == 0 then
    "." ++ Numeral.padded 6 (nanos / 1000)
  else "." ++ Numeral.padded 9 nanos

/-
  Date and time of day.  A leap second is one more than the
  second it follows.
-/
def text
    (seconds : Int)
    (nanos : Nat) : String :=
  let date := Date.ofDays (seconds / 86400)
  let time := (seconds % 86400).toNat
  yearText date.year
    ++ "-" ++ Numeral.padded 2 date.month
    ++ "-" ++ Numeral.padded 2 date.day
    ++ "T" ++ Numeral.padded 2 (time / 3600)
    ++ ":" ++ Numeral.padded 2 (time / 60 % 60)
    ++ ":" ++ Numeral.padded 2 (time % 60 + nanos / 1000000000)
    ++ fractionText (nanos % 1000000000)

end Clock

namespace Instant

/- Date and time in UTC. -/
def text (t : Instant) : String :=
  Clock.text t.seconds t.nanos ++ "Z"

end Instant

------------------------------------------------------------
-- Timestamps
------------------------------------------------------------

/- A point in time seen at an offset of less than a day. -/
structure Timestamp where
  instant : Instant
  offset : Int
  offset_lt : offset.natAbs < 86400
deriving DecidableEq

namespace Timestamp

/- An instant seen in UTC. -/
def ofInstant (t : Instant) : Timestamp :=
  ⟨t, 0, by decide⟩

/- Seconds since 1970, a fraction and an offset, if valid. -/
def of?
    (seconds : Int)
    (nanos : Nat)
    (offset : Int) : Option Timestamp :=
  if hValid : ValidFraction seconds nanos then
    if hOffset : offset.natAbs < 86400 then
      some ⟨⟨seconds, nanos, hValid⟩, offset, hOffset⟩
    else none
  else none

/- An offset in hours, minutes and, if any, seconds. -/
def offsetText (offset : Int) : String :=
  let n := offset.natAbs
  (if offset < 0 then "-" else "+")
    ++ Numeral.padded 2 (n / 3600)
    ++ ":" ++ Numeral.padded 2 (n / 60 % 60)
    ++ (if n % 60 == 0 then ""
        else ":" ++ Numeral.padded 2 (n % 60))

/- Date and time at the offset, then the offset. -/
def diagnostic (t : Timestamp) : String :=
  Clock.text (t.instant.seconds + t.offset) t.instant.nanos
    ++ offsetText t.offset

------------------------------------------------------------
-- Reading
------------------------------------------------------------

/- A number of exactly so many digits. -/
def fixed?
    (width : Nat)
    (cs : List Char) : Option (Nat × List Char) :=
  let digits := cs.take width
  if digits.length == width && digits.all Char.isDigit then
    some (Numeral.ofDigits digits, cs.drop width)
  else none

/- One of some characters. -/
def expect?
    (allowed : List Char) :
    List Char → Option (List Char)
  | [] => none
  | c :: cs => if allowed.contains c then some cs else none

/- Digits behind a point, of which the first nine count. -/
def fraction? : List Char → Option (Nat × List Char)
  | '.' :: cs =>
      let digits := cs.takeWhile Char.isDigit
      let nine := (digits.take 9).rightpad 9 '0'
      if digits.isEmpty then none
      else some (Numeral.ofDigits nine, cs.dropWhile Char.isDigit)
  | cs => some (0, cs)

/-
  The letter `Z`, or a sign, hours and minutes.  The sign may
  be the mathematical minus.
-/
def offset? (cs : List Char) : Option (Int × List Char) :=
  match expect? ['Z', 'z'] cs with
  | some rest => some (0, rest)
  | none => do
      let rest ← expect? ['+', '-', '−'] cs
      let (hours, rest) ← fixed? 2 rest
      let rest ← expect? [':'] rest
      let (minutes, rest) ← fixed? 2 rest
      guard (minutes ≤ 59)
      let seconds : Int := hours * 3600 + minutes * 60
      let sign := if cs.head? == some '+' then 1 else -1
      some (sign * seconds, rest)

/-
  A timestamp as `2024-01-31T23:59:59.5+01:00`.  The day must
  exist, second 60 is a leap second, and the letter between
  date and time may be a space.
-/
def read? (s : String) : Option Timestamp := do
  let (year, cs) ← fixed? 4 s.toList
  let cs ← expect? ['-'] cs
  let (month, cs) ← fixed? 2 cs
  let cs ← expect? ['-'] cs
  let (day, cs) ← fixed? 2 cs
  let cs ← expect? ['T', 't', ' '] cs
  let (hour, cs) ← fixed? 2 cs
  let cs ← expect? [':'] cs
  let (minute, cs) ← fixed? 2 cs
  let cs ← expect? [':'] cs
  let (second, cs) ← fixed? 2 cs
  let (nanos, cs) ← fraction? cs
  let (offset, cs) ← offset? cs
  let date : Date := ⟨year, month, day⟩
  guard (cs.isEmpty && date.isValid)
  guard (hour ≤ 23 && minute ≤ 59 && second ≤ 60)
  let clock : Int := hour * 3600 + minute * 60 + min second 59
  of? (date.toDays * 86400 + clock - offset)
    (if second == 60 then nanos + 1000000000 else nanos) offset

end Timestamp

end TypedFlux
