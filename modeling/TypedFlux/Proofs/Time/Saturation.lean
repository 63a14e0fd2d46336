import TypedFlux.Proofs.Number.Integers

/-
  Microseconds past the signed range.

  A span whose microseconds leave the signed range should be
  held at its end.  Just past the end there are spans whose
  whole milliseconds still fit, and these are counted in
  milliseconds instead, which sets them back before shorter
  spans.

  Key definitions include:
    * `Span.wholeMicros`, `Span.heldMicros`
    * `Span.SlipsAbove`, `Span.SlipsBelow`

  Key theorems include:
    * `Span.toInt_micros`
    * `Span.micros_saturates_iff`
-/

namespace TypedFlux

namespace Span

------------------------------------------------------------
-- Held Microseconds
------------------------------------------------------------

/- Whole microseconds toward zero, in the signed range or not. -/
def wholeMicros (d : Span) : Int :=
  d.total.tdiv 1000

/- Whole microseconds, held at the ends of the signed range. -/
def heldMicros (d : Span) : Int :=
  max (-0x8000000000000000)
    (min 0x7fffffffffffffff d.wholeMicros)

/- Past the largest number, within the same millisecond. -/
def SlipsAbove (d : Span) : Prop :=
  0x7fffffffffffffff < d.wholeMicros ∧
    d.wholeMicros < 9223372036854776000

/- Past the least number, within the same millisecond. -/
def SlipsBelow (d : Span) : Prop :=
  -9223372036854776000 < d.wholeMicros ∧
    d.wholeMicros < -0x8000000000000000

instance (d : Span) : Decidable d.SlipsAbove :=
  inferInstanceAs (Decidable (_ ∧ _))

instance (d : Span) : Decidable d.SlipsBelow :=
  inferInstanceAs (Decidable (_ ∧ _))

------------------------------------------------------------
-- The Three Ranges
------------------------------------------------------------

/- Division toward zero by the sign of the dividend. -/
theorem tdiv_cases
    (n k : Int) :
    0 ≤ n ∧ n.tdiv k = n / k ∨
      n < 0 ∧ n.tdiv k = -(-n / k) := by
  by_cases hSign : 0 ≤ n
  · exact .inl ⟨hSign, Int.tdiv_eq_ediv_of_nonneg hSign⟩
  · have hPositive : 0 ≤ -n := by omega
    have hTurned := Int.neg_tdiv (a := -n) (b := k)
    rw [Int.neg_neg, Int.tdiv_eq_ediv_of_nonneg hPositive]
      at hTurned
    exact .inr ⟨Int.not_le.mp hSign, hTurned⟩

/- Whole milliseconds are those of the whole microseconds. -/
theorem tdiv_wholeMicros
    (d : Span) :
    d.total.tdiv 1000000 = d.wholeMicros.tdiv 1000 := by
  have hMicros := tdiv_cases d.total 1000
  have hMillis := tdiv_cases d.total 1000000
  have hBoth := tdiv_cases (d.total.tdiv 1000) 1000
  unfold wholeMicros
  omega

/- A span has the sign of its whole microseconds. -/
theorem neg_of_wholeMicros
    {d : Span}
    (hNegative : d.wholeMicros < 0) :
    d.total < 0 := by
  have hMicros := tdiv_cases d.total 1000
  unfold wholeMicros at hNegative
  omega

theorem nonneg_of_wholeMicros
    {d : Span}
    (hPositive : 0 < d.wholeMicros) :
    ¬ d.total < 0 := by
  have hMicros := tdiv_cases d.total 1000
  unfold wholeMicros at hPositive
  omega

/-
  Microseconds are held at the ends of the signed range, but
  for the rest of the millisecond in which an end lies.
-/
theorem toInt_micros
    (d : Span) :
    d.micros.toInt =
      if d.SlipsAbove then 9223372036854775000
      else if d.SlipsBelow then -9223372036854775000
      else d.heldMicros := by
  have hMillis := tdiv_cases d.wholeMicros 1000
  unfold SlipsAbove SlipsBelow heldMicros micros
  rw [tdiv_wholeMicros, show d.total.tdiv 1000 = d.wholeMicros
    from rfl]
  cases hMicros : Numeral.toInt64? d.wholeMicros with
  | some n =>
      have hWhole := Numeral.toInt64?_eq_some.mp hMicros
      have hLow := n.le_toInt
      have hHigh := n.toInt_lt
      simp only
      omega
  | none =>
      rw [Numeral.toInt64?_eq_none] at hMicros
      cases hThousands : Numeral.toInt64?
          (d.wholeMicros.tdiv 1000 * 1000) with
      | some n =>
          have hCounted := Numeral.toInt64?_eq_some.mp hThousands
          have hLow := n.le_toInt
          have hHigh := n.toInt_lt
          simp only
          omega
      | none =>
          rw [Numeral.toInt64?_eq_none] at hThousands
          by_cases hSign : d.wholeMicros < 0
          · simp only [if_pos (neg_of_wholeMicros hSign),
              Int64.toInt_minValue]
            omega
          · have hPositive : 0 < d.wholeMicros := by omega
            simp only [if_neg (nonneg_of_wholeMicros hPositive),
              Int64.toInt_maxValue]
            omega

------------------------------------------------------------
-- Saturation
------------------------------------------------------------

theorem wholeMicros_mono
    {d e : Span}
    (hLength : d.total ≤ e.total) :
    d.wholeMicros ≤ e.wholeMicros :=
  Int.tdiv_le_tdiv (by decide) hLength

/-
  A longer span has fewer microseconds: it slips, and the
  shorter one stands between it and the end of the range.
-/
def Inverts (d e : Span) : Prop :=
  e.SlipsAbove ∧ ¬ d.SlipsAbove ∧
      9223372036854775000 < d.wholeMicros ∨
    d.SlipsBelow ∧ ¬ e.SlipsBelow ∧
      e.wholeMicros < -9223372036854775000

instance (d e : Span) : Decidable (Inverts d e) :=
  inferInstanceAs (Decidable (_ ∨ _))

/-
  Microseconds are held at the ends of the signed range
  exactly where a span does not slip, and grow with the span
  exactly where slipping does not set one back.
-/
theorem micros_saturates_iff
    (d e : Span) :
    d.micros.toInt =
        (if d.SlipsAbove then 9223372036854775000
        else if d.SlipsBelow then -9223372036854775000
        else d.heldMicros) ∧
      (d.micros.toInt = d.heldMicros ↔
        ¬ d.SlipsAbove ∧ ¬ d.SlipsBelow) ∧
      (d.total ≤ e.total →
        (d.micros ≤ e.micros ↔ ¬ Inverts d e)) := by
  refine ⟨toInt_micros d, ?_, ?_⟩
  · rw [toInt_micros]
    unfold SlipsAbove SlipsBelow heldMicros
    omega
  · intro hLength
    have hWhole := wholeMicros_mono hLength
    rw [Int64.le_iff_toInt_le, toInt_micros, toInt_micros]
    unfold Inverts SlipsAbove SlipsBelow heldMicros
    omega

/- The longest span whose microseconds are in the range. -/
def lastSpan : Span :=
  ⟨9223372036854775807999, by decide⟩

/- The shortest span that is held at the end of the range. -/
def heldSpan : Span :=
  ⟨9223372036854776000000, by decide⟩

theorem micros_saturates_iff_heldSpan :
    lastSpan.total ≤ heldSpan.total ∧
      heldSpan.wholeMicros = 9223372036854776000 ∧
      heldSpan.micros.toInt = heldSpan.heldMicros ∧
      lastSpan.micros ≤ heldSpan.micros := by
  have hLength : lastSpan.total ≤ heldSpan.total := by decide
  have hHeld := (micros_saturates_iff heldSpan lastSpan).2.1
  have hOrder :=
    (micros_saturates_iff lastSpan heldSpan).2.2 hLength
  exact ⟨hLength, by decide, hHeld.mpr (by decide),
    hOrder.mpr (by decide)⟩

/- The shortest span past the range. -/
def slippingSpan : Span :=
  ⟨9223372036854775808000, by decide⟩

/- One microsecond more, and 807 microseconds are lost. -/
theorem micros_not_held_slippingSpan :
    slippingSpan.micros.toInt = 9223372036854775000 ∧
      slippingSpan.heldMicros = 9223372036854775807 ∧
      lastSpan.total ≤ slippingSpan.total ∧
      slippingSpan.micros < lastSpan.micros := by
  decide

end Span

end TypedFlux
