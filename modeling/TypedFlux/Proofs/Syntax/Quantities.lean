import TypedFlux.Proofs.Number.Integers
import TypedFlux.Proofs.Syntax.Primaries

/-
  Whole numbers and spans, read exactly.

  Digits stand for the sum of their values at their places,
  however many there are.  Where they stand as a primary they
  are read as that number, or as that many units of time, or
  not at all: a number that does not fit is refused by each
  alternative, and none that is tried later takes it up.

  Key definitions include:
    * `Numeral.placeValue`

  Key theorems include:
    * `Numeral.ofDigits_eq_placeValue`
    * `Grammar.primary_misses_digits`
    * `Grammar.primary_quantity`
-/

------------------------------------------------------------
-- Places
------------------------------------------------------------

namespace TypedFlux

namespace Numeral

/- The sum of decimal digits, each at its place. -/
def placeValue : List Char → Nat
  | [] => 0
  | c :: cs =>
      (c.toNat - '0'.toNat) * tenTo cs.length + placeValue cs

/- Digits behind a number move it up by their places. -/
theorem ofDigitChars_eq_placeValue
    (ds : List Char)
    (n : Nat) :
    Nat.ofDigitChars 10 ds n =
      n * tenTo ds.length + placeValue ds := by
  induction ds generalizing n with
  | nil => simp [placeValue, Nat.ofDigitChars_nil]
  | cons c cs ih =>
      have hTen : tenTo (cs.length + 1) =
          10 * tenTo cs.length :=
        Nat.pow_succ'
      rw [Nat.ofDigitChars_cons, ih, placeValue,
        List.length_cons, hTen, Nat.add_mul, Nat.add_assoc,
        Nat.mul_comm 10 n, Nat.mul_assoc]

theorem ofDigits_eq_placeValue
    (ds : List Char) :
    ofDigits ds = placeValue ds := by
  rw [ofDigits, ofDigitChars_eq_placeValue, Nat.zero_mul,
    Nat.zero_add]

end Numeral

end TypedFlux

------------------------------------------------------------
-- Values
------------------------------------------------------------

namespace TypedFlux

namespace Lexeme

theorem wholeValue?_eq_int
    {n : Nat}
    (hFits : n ≤ 0x7fffffffffffffff) :
    ∃ k : Int64,
      k.toInt = n ∧ wholeValue? n = some (.int k) := by
  refine ⟨Int64.ofNat n, ?_, ?_⟩
  · exact Int64.toInt_ofNat_of_lt (Nat.lt_succ_of_le hFits)
  · rw [wholeValue?, if_pos hFits]

theorem wholeValue?_eq_uint
    {n : Nat}
    (hPast : 0x7fffffffffffffff < n)
    (hFits : n ≤ 0xffffffffffffffff) :
    ∃ k : UInt64,
      k.toNat = n ∧ wholeValue? n = some (.uint k) := by
  refine ⟨UInt64.ofNat n, ?_, ?_⟩
  · exact UInt64.toNat_ofNat_of_lt (Nat.lt_succ_of_le hFits)
  · rw [wholeValue?, if_neg (Nat.not_le_of_gt hPast),
      if_pos hFits]

theorem wholeValue?_eq_none
    {n : Nat}
    (hPast : 0xffffffffffffffff < n) :
    wholeValue? n = none := by
  have hFar : ¬ n ≤ 0x7fffffffffffffff := by omega
  rw [wholeValue?, if_neg hFar, if_neg (Nat.not_le_of_gt hPast)]

end Lexeme

/- A natural number of the signed range is converted. -/
theorem Numeral.exists_toInt64?
    {n : Nat}
    (hFits : n ≤ 0x7fffffffffffffff) :
    ∃ k : Int64, k.toInt = n ∧ toInt64? n = some k := by
  cases hRead : toInt64? n with
  | some k => exact ⟨k, toInt64?_eq_some.mp hRead, rfl⟩
  | none =>
      have hPast := toInt64?_eq_none.mp hRead
      omega

end TypedFlux

------------------------------------------------------------
-- Primaries
------------------------------------------------------------

namespace TypedFlux

namespace Grammar

open Lexeme Reader Numeral

variable {ds s : List Char}

/- Digits that are neither a span nor a number are nothing. -/
theorem primary_misses_digits
    (hDigits : IsDigits ds)
    (hSpan : span.Misses (ds ++ s))
    (hNumber : number.Misses (ds ++ s))
    (inner : Reader Node) :
    (primary inner).Misses (ds ++ s) := by
  have hQuote :
      Avoids (fun c => c == '\x22' || c == '\x27')
        (ds ++ s) := by
    refine avoids_digits ?_ hDigits s
    intro c hDigit
    rw [Bool.or_eq_false_iff, beq_eq_false_iff_ne,
      beq_eq_false_iff_ne]
    exact ⟨ne_of_class hDigit rfl, ne_of_class hDigit rfl⟩
  have hStart : Avoids isNameStart (ds ++ s) := by
    refine avoids_digits ?_ hDigits s
    intro c hDigit
    rw [Bool.eq_false_iff]
    intro hLetter
    rw [isDigit_of_isNameStart hLetter] at hDigit
    exact Bool.false_ne_true hDigit
  have hPlain :=
    plainPrimary_misses hSpan hNumber hQuote hStart
  rcases hPlain with ⟨fault, hPlain⟩
  exact ⟨fault, (primary_digits inner hDigits s).trans hPlain⟩

theorem primary_misses_wholeValue
    (hDigits : IsDigits ds)
    (hRest : Avoids isNameChar s)
    (hPoint : NoFraction s)
    (hPast : wholeValue? (ofDigits ds) = none)
    (inner : Reader Node) :
    (primary inner).Misses (ds ++ s) :=
  primary_misses_digits hDigits
    (span_misses_bare hDigits hRest)
    (number_misses_run hDigits hPast hRest hPoint) inner

section Units

variable {w : String} {factor : Nat}

/- Digits and a unit are read if their product fits. -/
theorem primary_of_product
    (hDigits : IsDigits ds)
    (hUnit : (w, factor) ∈ units)
    (hRest : Avoids isNameChar s)
    (hFits : ofDigits ds ≤ 0x7fffffffffffffff)
    (hProduct : ofDigits ds * factor ≤ 0x7fffffffffffffff)
    (inner : Reader Node) :
    ∃ d : Span, d.total = ofDigits ds * factor * 1000 ∧
      primary inner (ds ++ (w.toList ++ s)) =
        .ok (.literal (.span d)) s := by
  rcases exists_toInt64? hFits with ⟨k, hExact, hAmount⟩
  rcases exists_toInt64? hProduct with
    ⟨micros, hMicros, hConvert⟩
  have hSpan := span_run hDigits hUnit hAmount
    (by rw [hExact, ← Int.natCast_mul, hConvert]) hRest
  have hTotal : (Span.ofMicros micros).total =
      micros.toInt * 1000 :=
    rfl
  refine ⟨Span.ofMicros micros, ?_, ?_⟩
  · rw [hTotal, hMicros, Int.natCast_mul]
  · exact primary_of_span hDigits hSpan inner

/- With a unit behind them digits are no number either. -/
theorem primary_misses_product
    (hDigits : IsDigits ds)
    (hUnit : (w, factor) ∈ units)
    (hRest : Avoids isNameChar s)
    (hPast : 0x7fffffffffffffff < ofDigits ds ∨
      0x7fffffffffffffff < ofDigits ds * factor)
    (inner : Reader Node) :
    (primary inner).Misses (ds ++ (w.toList ++ s)) := by
  have hSpan : span.Misses (ds ++ (w.toList ++ s)) := by
    refine span_misses_run hDigits hUnit ?_ hRest
    -- digits that fit leave the product to overflow
    intro k hAmount
    have hExact := toInt64?_eq_some.mp hAmount
    have hHigh := k.toInt_lt
    rw [toInt64?_eq_none, hExact, ← Int.natCast_mul]
    omega
  have hNumber : number.Misses (ds ++ (w.toList ++ s)) := by
    rcases units_head hUnit with ⟨c, cs, hChars, hLetter⟩
    rw [hChars]
    exact number_misses_letter hDigits hLetter
  exact primary_misses_digits hDigits hSpan hNumber inner

end Units

/-
  Digits are read as the number they stand for, signed if it
  fits and else unsigned, and with a unit as that many units;
  whatever does not fit is refused.
-/
theorem primary_quantity
    (inner : Reader Node)
    (hDigits : IsDigits ds)
    (hRest : Avoids isNameChar s) :
    (Avoids (· == '.') s →
      (placeValue ds ≤ 0x7fffffffffffffff →
        ∃ k : Int64, k.toInt = placeValue ds ∧
          primary inner (ds ++ s) = .ok (.literal (.int k)) s) ∧
      (0x7fffffffffffffff < placeValue ds →
        placeValue ds ≤ 0xffffffffffffffff →
        ∃ k : UInt64, k.toNat = placeValue ds ∧
          primary inner (ds ++ s) = .ok (.literal (.uint k)) s) ∧
      (0xffffffffffffffff < placeValue ds →
        (primary inner).Misses (ds ++ s))) ∧
    (∀ w factor, (w, factor) ∈ units →
      (placeValue ds ≤ 0x7fffffffffffffff →
        placeValue ds * factor ≤ 0x7fffffffffffffff →
        ∃ d : Span, d.total = placeValue ds * factor * 1000 ∧
          primary inner (ds ++ (w.toList ++ s)) =
            .ok (.literal (.span d)) s) ∧
      (0x7fffffffffffffff < placeValue ds ∨
        0x7fffffffffffffff < placeValue ds * factor →
        (primary inner).Misses (ds ++ (w.toList ++ s)))) := by
  rw [← ofDigits_eq_placeValue]
  constructor
  · intro hDot
    have hPoint : NoFraction s := by
      rintro rest rfl
      exact absurd ((avoids_cons _ _ _).mp hDot) (by decide)
    refine ⟨fun hFits => ?_, fun hPast hFits => ?_, fun hPast => ?_⟩
    · rcases wholeValue?_eq_int hFits with ⟨k, hExact, hValue⟩
      exact ⟨k, hExact, primary_of_wholeValue hDigits hRest
        hPoint hValue inner⟩
    · rcases wholeValue?_eq_uint hPast hFits with
        ⟨k, hExact, hValue⟩
      exact ⟨k, hExact, primary_of_wholeValue hDigits hRest
        hPoint hValue inner⟩
    · exact primary_misses_wholeValue hDigits hRest hPoint
        (wholeValue?_eq_none hPast) inner
  · intro w factor hUnit
    constructor
    · intro hFits hProduct
      exact primary_of_product hDigits hUnit hRest hFits
        hProduct inner
    · intro hPast
      exact primary_misses_product hDigits hUnit hRest hPast
        inner

/- A day too many for a span is no span, but its hours are. -/
theorem primary_quantity_days :
    (IsDigits ['0', '1', '0', '6', '7', '5', '1', '9', '9', '2'] ∧
      Avoids isNameChar [')']) ∧
    (∃ k : Int64, k.toInt = 106751992 ∧
      primary expression
          ['0', '1', '0', '6', '7', '5', '1', '9', '9', '2', ')'] =
        .ok (.literal (.int k)) [')']) ∧
    (primary expression).Misses
      ['0', '1', '0', '6', '7', '5', '1', '9', '9', '2', 'd', ')'] ∧
    (∃ d : Span, d.total = 384307171200000000000 ∧
      primary expression
          ['0', '1', '0', '6', '7', '5', '1', '9', '9', '2', 'h',
            ')'] =
        .ok (.literal (.span d)) [')']) := by
  have hDigits : IsDigits
      ['0', '1', '0', '6', '7', '5', '1', '9', '9', '2'] :=
    ⟨List.cons_ne_nil _ _, List.all_eq_true.mp (by decide)⟩
  have hRest : Avoids isNameChar [')'] :=
    (avoids_cons _ _ _).mpr rfl
  have hDays : ("d", 24 * 60 * 60 * 1000000) ∈ units := by
    simp [units]
  have hHours : ("h", 60 * 60 * 1000000) ∈ units := by
    simp [units]
  rcases primary_quantity expression hDigits hRest with
    ⟨hWhole, hUnits⟩
  refine ⟨⟨hDigits, hRest⟩, ?_, ?_, ?_⟩
  · exact (hWhole ((avoids_cons _ _ _).mpr rfl)).1 (by decide)
  · exact (hUnits "d" _ hDays).2 (.inr (by decide))
  · exact (hUnits "h" _ hHours).1 (by decide) (by decide)

end Grammar

end TypedFlux
