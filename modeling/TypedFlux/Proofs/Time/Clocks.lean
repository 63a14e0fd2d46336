import TypedFlux.Proofs.Syntax.Lexemes

/-
  Points in time, read back from their text.

  A date gives back the number of its day, and the clock the
  second of the day.  The sixtieth second is read as the leap
  second that it is.

  Key definitions include:
    * `Date.ofMarch`
    * `Flux.integer`, `Flux.natural`
    * `Flux.instant`

  Key theorems include:
    * `Date.toDays_ofDays`
    * `Flux.integer_ofInt`
    * `Flux.instant_text`
-/

------------------------------------------------------------
-- Days
------------------------------------------------------------

namespace TypedFlux

namespace Date

/- A day of a year that begins with March. -/
def ofMarch (era yearOfEra dayOfYear : Int) : Date :=
  let m := (5 * dayOfYear + 2) / 153
  let day := dayOfYear - (153 * m + 2) / 5 + 1
  let month := if m < 10 then m + 3 else m - 9
  let year := yearOfEra + era * 400
  { year := if month ≤ 2 then year + 1 else year
    month := month.toNat
    day := day.toNat }

/-
  The number of a day, by the era, the year in it, and the
  month counted from March.
-/
theorem toDays_eq
    (era yearOfEra m : Int)
    {year : Int}
    {month day : Nat}
    (hYear : (if month ≤ 2 then year - 1 else year) =
      yearOfEra + era * 400)
    (hMonth : (((month + 9) % 12 : Nat) : Int) = m)
    (hYearOfEra : 0 ≤ yearOfEra ∧ yearOfEra < 400) :
    toDays ⟨year, month, day⟩ =
      era * 146097
        + (yearOfEra * 365 + yearOfEra / 4 - yearOfEra / 100
          + ((153 * m + 2) / 5 + day - 1))
        - 719468 := by
  have hEra : (yearOfEra + era * 400) / 400 = era := by omega
  simp only [toDays, hYear, hMonth, hEra, Int.add_sub_cancel]

/- The months from March on are counted back to days. -/
theorem toDays_ofMarch
    (era : Int)
    {yearOfEra dayOfYear : Int}
    (hYear : 0 ≤ yearOfEra ∧ yearOfEra < 400)
    (hDay : 0 ≤ dayOfYear ∧ dayOfYear < 366) :
    (ofMarch era yearOfEra dayOfYear).toDays =
      era * 146097
        + (365 * yearOfEra + yearOfEra / 4 - yearOfEra / 100)
        + dayOfYear - 719468 := by
  generalize hMonth : (5 * dayOfYear + 2) / 153 = m
  have hBounds : 0 ≤ m ∧ m < 12 := by omega
  have hFirst : 0 ≤ dayOfYear - (153 * m + 2) / 5 := by omega
  by_cases hEarly : m < 10
  · have hLate : ¬ m + 3 ≤ 2 := by omega
    simp only [ofMarch, hMonth, hEarly, hLate, if_true, if_false]
    rw [toDays_eq era yearOfEra m _ _ hYear]
    · omega
    · rw [if_neg (by omega)]
    · omega
  · have hNext : m - 9 ≤ 2 := by omega
    simp only [ofMarch, hMonth, hEarly, hNext, if_true, if_false]
    rw [toDays_eq era yearOfEra m _ _ hYear]
    · omega
    · rw [if_pos (by omega)]
      omega
    · omega

/- Within a century every fourth year has one more day. -/
theorem century_bounds
    {dayOfEra yearOfEra century : Int}
    (hFrom : 36524 * century ≤ dayOfEra)
    (hTo : dayOfEra < 36524 * (century + 1))
    (hCentury : 0 ≤ century ∧ century < 4)
    (hYear : (dayOfEra - dayOfEra / 1460 + century) / 365 =
      yearOfEra) :
    (100 * century ≤ yearOfEra ∧
        yearOfEra < 100 * (century + 1)) ∧
      0 ≤ dayOfEra - (365 * yearOfEra + yearOfEra / 4 - century) ∧
      dayOfEra - (365 * yearOfEra + yearOfEra / 4 - century) <
        366 := by
  generalize hQuarter : dayOfEra / 1460 = quarter at hYear
  have hQuarters :
      25 * century ≤ quarter ∧ quarter ≤ 25 * century + 25 := by
    omega
  have hYears : 100 * century ≤ yearOfEra ∧
      yearOfEra < 100 * (century + 1) := by
    omega
  have hBelow : yearOfEra / 4 ≤ quarter := by omega
  have hAbove : quarter ≤ yearOfEra / 4 + 1 := by omega
  refine ⟨hYears, ?_, ?_⟩
  · omega
  · omega

/- The year of a day in its era, and the day in that year. -/
theorem era_bounds
    {dayOfEra yearOfEra : Int}
    (hDay : 0 ≤ dayOfEra ∧ dayOfEra < 146097)
    (hYear : (dayOfEra - dayOfEra / 1460 + dayOfEra / 36524
      - dayOfEra / 146096) / 365 = yearOfEra) :
    (0 ≤ yearOfEra ∧ yearOfEra < 400) ∧
      0 ≤ dayOfEra
        - (365 * yearOfEra + yearOfEra / 4 - yearOfEra / 100) ∧
      dayOfEra
        - (365 * yearOfEra + yearOfEra / 4 - yearOfEra / 100) <
        366 := by
  -- the leap day of the last century ends the era
  by_cases hLast : dayOfEra = 146096
  · subst hLast
    omega
  · have hCentury :
        0 ≤ dayOfEra / 36524 ∧ dayOfEra / 36524 < 4 := by
      omega
    have hEnd : dayOfEra / 146096 = 0 := by omega
    rw [hEnd, Int.sub_zero] at hYear
    rcases century_bounds (by omega) (by omega) hCentury hYear
      with ⟨hYears, hBounds⟩
    have hSame : yearOfEra / 100 = dayOfEra / 36524 := by omega
    rw [hSame]
    exact ⟨by omega, hBounds⟩

/- A day is read back from its date. -/
theorem toDays_ofDays
    (days : Int) :
    (ofDays days).toDays = days := by
  rcases (⟨_, rfl⟩ : ∃ dayOfEra, dayOfEra = days + 719468
    - (days + 719468) / 146097 * 146097) with ⟨dayOfEra, hDay⟩
  have hBounds : 0 ≤ dayOfEra ∧ dayOfEra < 146097 := by omega
  rcases era_bounds hBounds rfl with ⟨hYear, hDayOfYear⟩
  have hDate := toDays_ofMarch ((days + 719468) / 146097)
    hYear hDayOfYear
  rw [hDay] at hDate
  refine hDate.trans ?_
  omega

end Date

end TypedFlux

------------------------------------------------------------
-- Padded Numerals
------------------------------------------------------------

namespace TypedFlux

namespace Numeral

theorem toList_padded
    (width n : Nat) :
    (padded width n).toList =
      List.replicate (width - (Nat.toDigits 10 n).length) '0'
        ++ Nat.toDigits 10 n := by
  simp [padded]

/- Padding is made of digits too. -/
theorem isDigit_of_mem_padded
    {width n : Nat}
    {c : Char}
    (hMem : c ∈ (padded width n).toList) :
    c.isDigit = true := by
  rw [toList_padded, List.mem_append] at hMem
  rcases hMem with hZero | hDigit
  · rw [List.eq_of_mem_replicate hZero]
    rfl
  · exact Nat.isDigit_of_mem_toDigits (by decide) (by decide)
      hDigit

/- Zeros in front change nothing. -/
theorem ofDigits_padded
    (width n : Nat) :
    ofDigits (padded width n).toList = n := by
  have hZeros : ∀ k,
      Nat.ofDigitChars 10 (List.replicate k '0') 0 = 0 := by
    intro k
    induction k with
    | zero => rfl
    | succ k ih =>
        rw [List.replicate_succ, Nat.ofDigitChars_cons]
        exact ih
  rw [ofDigits, toList_padded, Nat.ofDigitChars_append, hZeros]
  exact Nat.ofDigitChars_ten_toDigits

/- A number that fits is as long as its width. -/
theorem length_padded
    {width n : Nat}
    (hWidth : 0 < width)
    (hFits : n < tenTo width) :
    (padded width n).toList.length = width := by
  have hLength : (Nat.toDigits 10 n).length ≤ width :=
    (Nat.length_toDigits_le_iff (by decide) hWidth).mpr hFits
  rw [toList_padded, List.length_append, List.length_replicate]
  omega

theorem padded_ne_nil
    (width n : Nat) :
    (padded width n).toList ≠ [] := by
  rw [toList_padded]
  exact List.append_ne_nil_of_right_ne_nil _ Nat.toDigits_ne_nil

end Numeral

end TypedFlux

------------------------------------------------------------
-- Readers
------------------------------------------------------------

namespace TypedFlux

/- A date and a time of day in UTC, with second 60 as a leap second. -/
def Instant.ofClock?
    (date : Date)
    (hour minute second nanos : Nat) : Option Instant :=
  let seconds : Int :=
    date.toDays * 86400 + hour * 3600 + minute * 60
      + min second 59
  let fraction :=
    if second = 60 then nanos + 1000000000 else nanos
  if hValid : ValidFraction seconds fraction then
    some ⟨seconds, fraction, hValid⟩
  else none

namespace Flux

open Reader Lexeme

/- A sign; without one the number is positive. -/
def sign : Reader Int :=
  (do symbol '-'; return -1) <|> (do symbol '+'; return 1)
    <|> return 1

/- An integer behind its sign. -/
def integer : Reader Int := do
  let factor ← sign
  let ds ← digits
  return factor * Numeral.ofDigits ds

/- A number without a sign. -/
def natural : Reader Nat := do
  let ds ← digits
  return Numeral.ofDigits ds

/- The nanoseconds behind a point, if there are any. -/
def fraction : Reader Nat :=
  (do
    symbol '.'
    let ds ← digits
    return Numeral.ofDigits ds * tenTo (9 - ds.length))
    <|> return 0

/- A point in time. -/
def instant : Reader Instant :=
  Reader.convert
    (do
      let year ← integer
      symbol '-'
      let month ← natural
      symbol '-'
      let day ← natural
      symbol 'T'
      let hour ← natural
      symbol ':'
      let minute ← natural
      symbol ':'
      let second ← natural
      let nanos ← fraction
      symbol 'Z'
      return Instant.ofClock? ⟨year, month, day⟩
        hour minute second nanos)
    id

end Flux

end TypedFlux

------------------------------------------------------------
-- Numbers Read Back
------------------------------------------------------------

namespace TypedFlux

namespace Flux

open Reader Lexeme

variable {run rest : List Char}

/- A run of digits up to the first other character. -/
theorem digits_run
    (hRun : ∀ c ∈ run, c.isDigit = true)
    (hNonempty : run ≠ [])
    (hRest : Avoids Char.isDigit rest) :
    digits (run ++ rest) = .ok run rest := by
  unfold digits
  rw [takeWhile_run hRun hRest, dropWhile_run hRun hRest]
  cases run with
  | nil => exact absurd rfl hNonempty
  | cons c run => rfl

/- Without a sign a number is positive. -/
theorem sign_run
    (hRun : ∀ c ∈ run, c.isDigit = true)
    (hNonempty : run ≠ []) :
    sign (run ++ rest) = .ok 1 (run ++ rest) := by
  cases run with
  | nil => exact absurd rfl hNonempty
  | cons c run =>
      have hDigit := hRun c List.mem_cons_self
      have hOther : ∀ d : Char, d.isDigit = false →
          (symbol d).Misses (c :: run ++ rest) := by
        intro d hNoDigit
        apply symbol_misses
        rw [List.cons_append, avoids_cons, beq_eq_false_iff_ne]
        rintro rfl
        rw [hDigit] at hNoDigit
        cases hNoDigit
      unfold sign
      rw [orElse_of_misses ((hOther '-' rfl).bind _),
        orElse_of_misses ((hOther '+' rfl).bind _)]
      rfl

/- An integer is read up to the first other character. -/
theorem integer_run
    (hRun : ∀ c ∈ run, c.isDigit = true)
    (hNonempty : run ≠ [])
    (hRest : Avoids Char.isDigit rest) :
    integer (run ++ rest) = .ok (Numeral.ofDigits run) rest := by
  unfold integer
  rw [bind_of_ok (sign_run hRun hNonempty),
    bind_of_ok (digits_run hRun hNonempty hRest), pure_apply,
    Int.one_mul]

/- The same behind a minus sign. -/
theorem integer_minus
    (hRun : ∀ c ∈ run, c.isDigit = true)
    (hNonempty : run ≠ [])
    (hRest : Avoids Char.isDigit rest) :
    integer ('-' :: (run ++ rest)) =
      .ok (-(Numeral.ofDigits run : Int)) rest := by
  have hSign : sign ('-' :: (run ++ rest)) =
      .ok (-1) (run ++ rest) := rfl
  unfold integer
  rw [bind_of_ok hSign,
    bind_of_ok (digits_run hRun hNonempty hRest), pure_apply,
    Int.neg_one_mul]

theorem integer_plus
    (hRun : ∀ c ∈ run, c.isDigit = true)
    (hNonempty : run ≠ [])
    (hRest : Avoids Char.isDigit rest) :
    integer ('+' :: (run ++ rest)) =
      .ok (Numeral.ofDigits run) rest := by
  have hSign : sign ('+' :: (run ++ rest)) =
      .ok 1 (run ++ rest) := rfl
  unfold integer
  rw [bind_of_ok hSign,
    bind_of_ok (digits_run hRun hNonempty hRest), pure_apply,
    Int.one_mul]

/- A sign is the first character in front of digits. -/
theorem toList_minus
    (digits : String) :
    ("-" ++ digits).toList = '-' :: digits.toList := by
  simp

theorem toList_plus
    (digits : String) :
    ("+" ++ digits).toList = '+' :: digits.toList := by
  simp

/- An integer is read back from its numeral. -/
theorem integer_ofInt
    (n : Int)
    (hRest : Avoids Char.isDigit rest) :
    integer ((Numeral.ofInt n).toList ++ rest) = .ok n rest := by
  have hRun : ∀ c ∈ (Numeral.ofNat n.natAbs).toList,
      c.isDigit = true :=
    fun c hMem => isDigit_of_mem_ofNat hMem
  have hNonempty : (Numeral.ofNat n.natAbs).toList ≠ [] := by
    rcases toList_ofNat_cons n.natAbs with ⟨c, cs, hChars, _⟩
    rw [hChars]
    exact List.cons_ne_nil c cs
  unfold Numeral.ofInt
  split
  · rw [toList_minus, List.cons_append,
      integer_minus hRun hNonempty hRest, ofDigits_ofNat]
    congr 1
    omega
  · rw [integer_run hRun hNonempty hRest, ofDigits_ofNat]
    congr 1
    omega

/- A year is read back, also one with more digits. -/
theorem integer_yearText
    (year : Int)
    (hRest : Avoids Char.isDigit rest) :
    integer ((Clock.yearText year).toList ++ rest) =
      .ok year rest := by
  have hRun : ∀ c ∈ (Numeral.padded 4 year.natAbs).toList,
      c.isDigit = true :=
    fun c hMem => Numeral.isDigit_of_mem_padded hMem
  have hNonempty := Numeral.padded_ne_nil 4 year.natAbs
  unfold Clock.yearText
  split
  · rw [toList_minus, List.cons_append,
      integer_minus hRun hNonempty hRest,
      Numeral.ofDigits_padded]
    congr 1
    omega
  · split
    · rw [toList_plus, List.cons_append,
        integer_plus hRun hNonempty hRest,
        Numeral.ofDigits_padded]
      congr 1
      omega
    · rw [integer_run hRun hNonempty hRest,
        Numeral.ofDigits_padded]
      congr 1
      omega

/- The zeros in front do not count. -/
theorem natural_padded
    (width n : Nat)
    (hRest : Avoids Char.isDigit rest) :
    natural ((Numeral.padded width n).toList ++ rest) =
      .ok n rest := by
  unfold natural
  rw [bind_of_ok (digits_run
    (fun c hMem => Numeral.isDigit_of_mem_padded hMem)
    (Numeral.padded_ne_nil width n) hRest), pure_apply,
    Numeral.ofDigits_padded]

end Flux

end TypedFlux

------------------------------------------------------------
-- Points in Time Read Back
------------------------------------------------------------

namespace TypedFlux

namespace Flux

open Reader Lexeme

variable {rest : List Char}

theorem toList_point
    (digits : String) :
    ("." ++ digits).toList ++ rest =
      '.' :: (digits.toList ++ rest) := by
  simp

/- Digits behind the point count by their places. -/
theorem fraction_padded
    {width n : Nat}
    (hWidth : 0 < width)
    (hFits : n < tenTo width)
    (hRest : Avoids Char.isDigit rest) :
    fraction (("." ++ Numeral.padded width n).toList ++ rest) =
      .ok (n * tenTo (9 - width)) rest := by
  unfold fraction
  apply orElse_of_ok
  rw [toList_point, bind_of_ok (symbol_cons '.' _),
    bind_of_ok (digits_run
      (fun c hMem => Numeral.isDigit_of_mem_padded hMem)
      (Numeral.padded_ne_nil width n) hRest),
    pure_apply, Numeral.ofDigits_padded,
    Numeral.length_padded hWidth hFits]

/- A fraction has a point in front, or is not written. -/
theorem avoids_fractionText
    (nanos : Nat)
    (hRest : Avoids Char.isDigit rest) :
    Avoids Char.isDigit
      ((Clock.fractionText nanos).toList ++ rest) := by
  have hPoint : ∀ digits : String, Avoids Char.isDigit
      (("." ++ digits).toList ++ rest) := by
    intro digits
    rw [toList_point, avoids_cons]
    rfl
  unfold Clock.fractionText
  split
  · exact hRest
  · split
    · exact hPoint _
    · split
      · exact hPoint _
      · exact hPoint _

/- A fraction is read back from its groups of digits. -/
theorem fraction_fractionText
    {nanos : Nat}
    (hFits : nanos < 1000000000)
    (hPoint : Avoids (· == '.') rest)
    (hRest : Avoids Char.isDigit rest) :
    fraction ((Clock.fractionText nanos).toList ++ rest) =
      .ok nanos rest := by
  unfold Clock.fractionText
  split
  next hZero =>
    rw [beq_iff_eq.mp hZero]
    exact orElse_of_misses ((symbol_misses hPoint).bind _)
  next =>
    split
    next hMillis =>
      have hWhole := beq_iff_eq.mp hMillis
      rw [fraction_padded (by decide) _ hRest]
      · congr 1
        change nanos / 1000000 * 1000000 = nanos
        omega
      · change nanos / 1000000 < 1000
        omega
    next =>
      split
      next hMicros =>
        have hWhole := beq_iff_eq.mp hMicros
        rw [fraction_padded (by decide) _ hRest]
        · congr 1
          change nanos / 1000 * 1000 = nanos
          omega
        · change nanos / 1000 < 1000000
          omega
      next =>
        rw [fraction_padded (by decide) hFits hRest]
        congr 1
        change nanos * 1 = nanos
        omega

/- A date and a clock give this instant. -/
theorem ofClock?_eq
    {date : Date}
    {hour minute second nanos : Nat}
    {t : Instant}
    (hSeconds : date.toDays * 86400 + hour * 3600 + minute * 60
      + (min second 59 : Nat) = t.seconds)
    (hNanos : (if second = 60 then nanos + 1000000000
      else nanos) = t.nanos) :
    Instant.ofClock? date hour minute second nanos = some t := by
  unfold Instant.ofClock?
  simp only [hSeconds, hNanos]
  exact dif_pos t.valid

/- The clock of a day gives back the second of the day. -/
theorem clock_seconds
    {seconds : Int}
    {nanos time : Nat}
    (hValid : ValidFraction seconds nanos)
    (hTime : (seconds % 86400).toNat = time) :
    seconds / 86400 * 86400 + (time / 3600 : Nat) * 3600
        + (time / 60 % 60 : Nat) * 60
        + (min (time % 60 + nanos / 1000000000) 59 : Nat) =
      seconds := by
  have hParts : time / 3600 * 3600 + time / 60 % 60 * 60
      + time % 60 = time := by
    omega
  have hLast : min (time % 60 + nanos / 1000000000) 59 =
      time % 60 := by
    rcases hValid with hPlain | ⟨hSecond, hLeap⟩
    · omega
    · omega
  omega

/-
  A leap second is kept in the fraction, and the clock shows
  it as the sixtieth.
-/
theorem clock_nanos
    {seconds : Int}
    {nanos time : Nat}
    (hValid : ValidFraction seconds nanos)
    (hTime : (seconds % 86400).toNat = time) :
    (if time % 60 + nanos / 1000000000 = 60 then
        nanos % 1000000000 + 1000000000
      else nanos % 1000000000) =
      nanos := by
  rcases hValid with hPlain | ⟨hSecond, hLeap⟩
  · rw [if_neg (by omega)]
    omega
  · have hMinute : time % 60 = 59 := by omega
    split
    · omega
    · omega

/- A point in time is read back from its text. -/
theorem instant_text
    (t : Instant)
    (rest : List Char) :
    instant (t.text.toList ++ rest) = .ok t rest := by
  have hAfter : ∀ (c : Char) (s : List Char),
      c.isDigit = false → Avoids Char.isDigit (c :: s) :=
    fun c s hOther => (avoids_cons _ c s).mpr hOther
  generalize hDate : Date.ofDays (t.seconds / 86400) = date
  generalize hTime : (t.seconds % 86400).toNat = time
  have hChars : t.text.toList ++ rest =
      (Clock.yearText date.year).toList ++ '-' ::
      ((Numeral.padded 2 date.month).toList ++ '-' ::
      ((Numeral.padded 2 date.day).toList ++ 'T' ::
      ((Numeral.padded 2 (time / 3600)).toList ++ ':' ::
      ((Numeral.padded 2 (time / 60 % 60)).toList ++ ':' ::
      ((Numeral.padded 2
          (time % 60 + t.nanos / 1000000000)).toList ++
      ((Clock.fractionText (t.nanos % 1000000000)).toList ++
        'Z' :: rest)))))) := by
    simp [Instant.text, Clock.text, hDate, hTime]
  have hFraction : Avoids Char.isDigit
      ((Clock.fractionText (t.nanos % 1000000000)).toList ++
        'Z' :: rest) :=
    avoids_fractionText _ (hAfter 'Z' rest rfl)
  unfold instant
  refine convert_of_ok (?_ : _ = Reply.ok (Instant.ofClock? date
    (time / 3600) (time / 60 % 60)
    (time % 60 + t.nanos / 1000000000) (t.nanos % 1000000000))
      rest) ?_
  · rw [hChars, bind_of_ok (integer_yearText _ (hAfter _ _ rfl)),
      bind_of_ok (symbol_cons _ _),
      bind_of_ok (natural_padded _ _ (hAfter _ _ rfl)),
      bind_of_ok (symbol_cons _ _),
      bind_of_ok (natural_padded _ _ (hAfter _ _ rfl)),
      bind_of_ok (symbol_cons _ _),
      bind_of_ok (natural_padded _ _ (hAfter _ _ rfl)),
      bind_of_ok (symbol_cons _ _),
      bind_of_ok (natural_padded _ _ (hAfter _ _ rfl)),
      bind_of_ok (symbol_cons _ _),
      bind_of_ok (natural_padded _ _ hFraction),
      bind_of_ok (fraction_fractionText (Nat.mod_lt _ (by decide))
        ((avoids_cons _ _ _).mpr rfl) (hAfter _ _ rfl)),
      bind_of_ok (symbol_cons _ _)]
    rfl
  · rw [id_eq]
    apply ofClock?_eq
    · rw [← hDate, Date.toDays_ofDays]
      exact clock_seconds t.valid hTime
    · exact clock_nanos t.valid hTime

end Flux

end TypedFlux
