import Mathlib.Algebra.GroupWithZero.Nat
import Mathlib.Data.List.Perm.Basic
import TypedFlux.Proofs.Number.Integers
import TypedFlux.Proofs.Service.Streams

/-
  Totals of the counts of all tables.

  A total holds at the largest signed integer.  Counts are not
  negative, so a total that is held once stays there, and the
  result is the clamped sum of all counts.  It depends neither
  on the order of the tables nor on how the rows are spread
  over them.

  Key definitions include:
    * `Value.StandsFor`
    * `Value.Counts`

  Key theorems include:
    * `Value.toInt64?_eq_some`
    * `Reduction.total_of_counts`
    * `Reduction.reduce_counts`
-/

------------------------------------------------------------
-- The Integers of Values
------------------------------------------------------------

namespace TypedFlux

namespace Value

/-
  The integer that a value of each kind stands for.  Times,
  spans and arrays stand for none.
-/
def StandsFor : Value → Int → Prop
  | .bool b, n => n = if b then 1 else 0
  | .int k, n => n = k.toInt
  | .uint k, n => n = k.toNat ∧ n ≤ 0x7fffffffffffffff
  | .float x, n =>
      x.isFinite = true ∧
        n = max (-0x8000000000000000)
          (min 0x7fffffffffffffff x.truncate)
  | .string s, n | .other s, n =>
      Numeral.Holds s n ∧
        -0x8000000000000000 ≤ n ∧ n ≤ 0x7fffffffffffffff
  | .time _, _ | .span _, _ | .array _, _ => False

/- Every integer that a value stands for is a machine integer. -/
theorem StandsFor.exists_toInt
    {v : Value}
    {n : Int}
    (hStands : v.StandsFor n) :
    ∃ k : Int64, k.toInt = n := by
  suffices hRange :
      -0x8000000000000000 ≤ n ∧ n ≤ 0x7fffffffffffffff from
    ⟨Int64.ofInt n, Int64.toInt_ofInt_of_le hRange.1
      (Int.lt_add_one_of_le hRange.2)⟩
  cases v with
  | bool b =>
      rw [show n = if b then 1 else 0 from hStands]
      split <;> omega
  | int k =>
      have hLow := k.le_toInt
      have hHigh := k.toInt_lt
      rw [show n = k.toInt from hStands]
      omega
  | uint k =>
      rcases hStands with ⟨rfl, hFits⟩
      omega
  | float x =>
      rcases hStands with ⟨_, rfl⟩
      omega
  | string s | other s => exact hStands.2
  | time t | span d | array items => exact hStands.elim

/- Texts convert to the machine integers that they hold. -/
theorem int64?_trim_iff
    (s : String)
    (k : Int64) :
    Numeral.int64? (Text.trim s) = some k ↔
      Numeral.Holds s k.toInt ∧
        -0x8000000000000000 ≤ k.toInt ∧
          k.toInt ≤ 0x7fffffffffffffff := by
  have hLow := k.le_toInt
  have hHigh := k.toInt_lt
  rw [Numeral.int64?_trim]
  constructor
  · intro hHolds
    exact ⟨hHolds, by omega, by omega⟩
  · exact And.left

/- A value converts to the integer that it stands for. -/
theorem toInt64?_eq_some
    {v : Value}
    {k : Int64} :
    v.toInt64? = some k ↔ v.StandsFor k.toInt := by
  cases v with
  | bool b =>
      rw [toInt64?, Option.some.injEq, ← Int64.toInt_inj,
        StandsFor, eq_comm]
      cases b <;> rfl
  | int n =>
      rw [toInt64?, Option.some.injEq, ← Int64.toInt_inj,
        StandsFor, eq_comm]
  | uint n =>
      have hHigh := k.toInt_lt
      rw [toInt64?, Numeral.toInt64?_eq_some, StandsFor]
      constructor
      · intro hSame
        exact ⟨hSame, by omega⟩
      · exact And.left
  | float x =>
      have hSame := Int64.toInt_ofInt_of_le
        (n := max (-0x8000000000000000)
          (min 0x7fffffffffffffff x.truncate))
        (by omega) (by omega)
      rw [toInt64?, Binary64.toInt64?, StandsFor]
      split
      · next hFinite =>
          rw [Option.some.injEq, ← Int64.toInt_inj, hSame,
            eq_comm]
          exact (and_iff_right hFinite).symm
      · next hEndless =>
          simp only [reduceCtorEq, hEndless, false_and]
  | string s | other s =>
      rw [toInt64?, StandsFor]
      exact int64?_trim_iff s k
  | time t | span d | array items =>
      simp only [toInt64?, StandsFor, reduceCtorEq]

/- A value that stands for a number of rows. -/
def Counts
    (v : Value)
    (n : Nat) : Prop :=
  v.StandsFor n

theorem Counts.exists_toInt64?
    {v : Value}
    {n : Nat}
    (hCounts : v.Counts n) :
    ∃ k : Int64, v.toInt64? = some k ∧ k.toInt = n := by
  rcases StandsFor.exists_toInt hCounts with ⟨k, hSame⟩
  refine ⟨k, toInt64?_eq_some.mpr ?_, hSame⟩
  rw [hSame]
  exact hCounts

end Value

end TypedFlux

------------------------------------------------------------
-- Totals
------------------------------------------------------------

namespace TypedFlux

namespace Reduction

/- A sum of counts only ever passes the upper end. -/
theorem toInt_saturatingAdd
    {a b : Int64}
    (hFirst : 0 ≤ a.toInt)
    (hSecond : 0 ≤ b.toInt) :
    (saturatingAdd a b).toInt =
      min (a.toInt + b.toInt) 0x7fffffffffffffff := by
  have hMax : Int64.maxValue.toInt = 0x7fffffffffffffff := rfl
  have hMin : Int64.minValue.toInt = -0x8000000000000000 := rfl
  unfold saturatingAdd
  simp only [hMax, hMin]
  split
  · next hPast =>
      rw [hMax]
      omega
  · next hFits =>
      rw [if_neg (by omega),
        Int64.toInt_ofInt_of_le (by omega) (by omega)]
      omega

/-
  The total of counts is the clamped sum.  By induction on the
  counts: the total so far is itself the clamped sum of the
  counts before.
-/
theorem total_of_counts
    {values : List Value}
    {counts : List Nat}
    (hCounts : List.Forall₂ Value.Counts values counts)
    (sum : Int64)
    (before : Nat)
    (hSum : sum.toInt = (min before 0x7fffffffffffffff : Nat)) :
    ∃ k : Int64,
      total sum values = .ok k ∧
        k.toInt =
          (min (before + counts.sum) 0x7fffffffffffffff :
            Nat) := by
  induction hCounts generalizing sum before with
  | nil => exact ⟨sum, rfl, hSum⟩
  | @cons v n values counts hHead _ ih =>
      rcases hHead.exists_toInt64? with ⟨m, hInteger, hSame⟩
      have hNext : (saturatingAdd sum m).toInt =
          (min (before + n) 0x7fffffffffffffff : Nat) := by
        rw [toInt_saturatingAdd (by omega) (by omega), hSum,
          hSame]
        omega
      rcases ih _ _ hNext with ⟨k, hTotal, hValue⟩
      refine ⟨k, ?_, ?_⟩
      · rw [total, hInteger]
        exact hTotal
      · rw [hValue, List.sum_cons]
        omega

theorem reduce_count_eq_error_iff
    {values : List Value}
    {error : QueryError} :
    reduce (some .count) values = .error error ↔
      ∃ v, values.find? (·.toInt64?.isNone) = some v ∧
        error = .notCount v := by
  rw [← total_eq_error_iff, reduce]
  cases total 0 values with
  | error _ => simp only [Except.map, Except.error.injEq]
  | ok k => simp only [Except.map, reduceCtorEq]

theorem reduce_count_of_counts
    {values : List Value}
    {counts : List Nat}
    (hCounts : List.Forall₂ Value.Counts values counts) :
    ∃ k : Int64,
      reduce (some .count) values = .ok (.int k) ∧
        k.toInt =
          (min counts.sum 0x7fffffffffffffff : Nat) := by
  rcases total_of_counts hCounts 0 0 rfl with
    ⟨k, hTotal, hValue⟩
  refine ⟨k, ?_, ?_⟩
  · rw [reduce, hTotal]
    rfl
  · rw [hValue, Nat.zero_add]

/- Counts of one sum have one total. -/
theorem reduce_count_congr
    {values values' : List Value}
    {counts counts' : List Nat}
    (hCounts : List.Forall₂ Value.Counts values counts)
    (hCounts' : List.Forall₂ Value.Counts values' counts')
    (hSum : counts'.sum = counts.sum) :
    reduce (some .count) values' =
      reduce (some .count) values := by
  rcases reduce_count_of_counts hCounts with
    ⟨k, hReduce, hValue⟩
  rcases reduce_count_of_counts hCounts' with
    ⟨k', hReduce', hValue'⟩
  have hSame : k' = k := by
    rw [← Int64.toInt_inj, hValue, hValue', hSum]
  rw [hReduce, hReduce', hSame]

/-
  A reduction to a count fails exactly if some value stands
  for no integer, with a mapping error that names such a
  value.  Counts are reduced to their sum or, past the range,
  to the largest integer, whatever their order and however
  the rows are spread over tables.
-/
theorem reduce_counts
    (values : List Value) :
    ((∃ error,
        reduce (some .count) values = .error error) ↔
      ∃ v ∈ values, v.toInt64? = none) ∧
    (∀ error, reduce (some .count) values = .error error →
      error.IsMapping ∧
        ∃ v ∈ values,
          v.toInt64? = none ∧ error = .notCount v) ∧
    ∀ counts : List Nat,
      List.Forall₂ Value.Counts values counts →
        (∃ k : Int64,
          reduce (some .count) values = .ok (.int k) ∧
            k.toInt =
              (min counts.sum 0x7fffffffffffffff : Nat)) ∧
        (∀ values' : List Value, values'.Perm values →
          reduce (some .count) values' =
            reduce (some .count) values) ∧
        ∀ (values' : List Value) (counts' : List Nat),
          List.Forall₂ Value.Counts values' counts' →
            counts'.sum = counts.sum →
              reduce (some .count) values' =
                reduce (some .count) values := by
  have hNamed : ∀ error,
      reduce (some .count) values = .error error →
        error.IsMapping ∧
          ∃ v ∈ values,
            v.toInt64? = none ∧ error = .notCount v := by
    intro error hError
    rcases reduce_count_eq_error_iff.mp hError with
      ⟨v, hFirst, rfl⟩
    have hNone := List.find?_some hFirst
    exact ⟨trivial, v, List.mem_of_find?_eq_some hFirst,
      Option.isNone_iff_eq_none.mp hNone, rfl⟩
  refine ⟨⟨?_, ?_⟩, hNamed, ?_⟩
  · rintro ⟨error, hError⟩
    rcases hNamed error hError with ⟨_, v, hMem, hNone, _⟩
    exact ⟨v, hMem, hNone⟩
  · rintro ⟨v, hMem, hNone⟩
    have hSome : (values.find? (·.toInt64?.isNone)).isSome :=
      List.find?_isSome.mpr ⟨v, hMem, by simp [hNone]⟩
    rcases Option.isSome_iff_exists.mp hSome with ⟨u, hFirst⟩
    exact ⟨.notCount u,
      reduce_count_eq_error_iff.mpr ⟨u, hFirst, rfl⟩⟩
  · intro counts hCounts
    refine ⟨reduce_count_of_counts hCounts, ?_, ?_⟩
    · intro values' hPerm
      rcases List.perm_comp_forall₂ hPerm hCounts with
        ⟨counts', hCounts', hPermCounts⟩
      exact reduce_count_congr hCounts hCounts'
        hPermCounts.sum_nat
    · intro values' counts' hCounts' hSum
      exact reduce_count_congr hCounts hCounts' hSum

/- Counts of several kinds whose sum passes the range. -/
def mixedCounts : List Value :=
  [.uint 0x7ffffffffffffffe, .string " +4 ", .bool true, .int 0]

theorem counts_mixedCounts :
    List.Forall₂ Value.Counts mixedCounts
      [0x7ffffffffffffffe, 4, 1, 0] := by
  have hText : Numeral.Holds " +4 " 4 := by
    have hDigits : Numeral.IsDigits ['4'] :=
      ⟨List.cons_ne_nil _ _,
        List.forall_mem_singleton.mpr (by decide)⟩
    have hBlank : ∀ c ∈ [' '], Text.isBlank c = true :=
      List.forall_mem_singleton.mpr (by decide)
    exact ⟨[' '], ['+', '4'], [' '], rfl, hBlank, hBlank,
      .plus hDigits⟩
  refine .cons ⟨rfl, by decide⟩ (.cons ⟨hText, by decide⟩
    (.cons ?_ (.cons ?_ .nil)))
  · rfl
  · rfl

theorem reduce_counts_mixed :
    List.Forall₂ Value.Counts mixedCounts
      [0x7ffffffffffffffe, 4, 1, 0] ∧
    (∃ k : Int64,
      reduce (some .count) mixedCounts = .ok (.int k) ∧
        k.toInt = 0x7fffffffffffffff) ∧
    reduce (some .count) mixedCounts.reverse =
      reduce (some .count) mixedCounts ∧
    ∃ error, reduce (some .count)
      (mixedCounts ++ [.array []]) = .error error := by
  rcases (reduce_counts mixedCounts).2.2 _ counts_mixedCounts
    with ⟨hTotal, hOrder, _⟩
  refine ⟨counts_mixedCounts, hTotal,
    hOrder _ (List.reverse_perm _), ?_⟩
  exact (reduce_counts _).1.mpr
    ⟨.array [], List.mem_append_right _ List.mem_cons_self, rfl⟩

/- Below zero the order of the values tells. -/
example :
    reduce (some .count)
      [.int Int64.maxValue, .int 1, .int (-1)] =
        .ok (.int (Int64.maxValue - 1)) ∧
    reduce (some .count)
      [.int Int64.maxValue, .int (-1), .int 1] =
        .ok (.int Int64.maxValue) :=
  ⟨rfl, rfl⟩

end Reduction

end TypedFlux
