import TypedFlux.Proofs.Draft.Acceptance
import TypedFlux.Proofs.Number.Integers

/-
  Counts of rows and of items.

  A script and the evaluation in memory both ask for a number
  that is not negative.  A script takes every machine integer,
  also below conversions.  In memory a constant counts by the
  signed integer it stands for, so truth values and numerals
  in texts count, but neither conversions nor numbers past the
  signed range.

  Key definitions include:
    * `Value.IsItemCount`
    * `Expr.CountsItemsOnly`, `Expr.CountsRowsOnly`

  Key theorems include:
    * `ResultOperator.evaluate_ok_iff`
    * `Draft.ofQuery_operator_ok_iff`
    * `ResultOperator.counts_agree_iff`
-/

------------------------------------------------------------
-- Counts in Memory
------------------------------------------------------------

namespace TypedFlux

/- A text holds the numeral of a count. -/
def Text.HoldsCount (s : String) : Prop :=
  ∃ n : Int, 0 ≤ n ∧ n ≤ 0x7fffffffffffffff ∧ Numeral.Holds s n

/- Whether a value is a number of items in memory. -/
def Value.IsItemCount : Value → Prop
  | .bool _ => True
  | .int n => 0 ≤ n.toInt
  | .uint n => n.toNat ≤ 0x7fffffffffffffff
  | .string s | .other s => Text.HoldsCount s
  | .float _ | .time _ | .span _ | .array _ => False

theorem Text.holdsCount_iff
    (s : String) :
    HoldsCount s ↔
      ∃ k, Numeral.int64? (trim s) = some k ∧ 0 ≤ k.toInt := by
  simp only [Numeral.int64?_trim]
  constructor
  · rintro ⟨n, hNonneg, hFits, hHolds⟩
    have hSame : (Int64.ofInt n).toInt = n :=
      Int64.toInt_ofInt_of_le (by omega) (by omega)
    exact ⟨Int64.ofInt n, by rwa [hSame], by rwa [hSame]⟩
  · rintro ⟨k, hHolds, hNonneg⟩
    have hHigh := k.toInt_lt
    exact ⟨k.toInt, hNonneg, by omega, hHolds⟩

/- A value counts by its integer, but a fraction does not. -/
theorem Value.isItemCount_iff
    (v : Value) :
    v.IsItemCount ↔
      v.isFloat = false ∧
        ∃ k, v.toInt64? = some k ∧ 0 ≤ k.toInt := by
  cases v with
  | bool b => cases b <;> simp [IsItemCount, toInt64?, isFloat]
  | int n => simp [IsItemCount, toInt64?, isFloat]
  | uint n =>
      simp only [IsItemCount, toInt64?, isFloat, true_and,
        Numeral.toInt64?_eq_some]
      constructor
      · intro hFits
        have hSame : (Int64.ofInt n.toNat).toInt = n.toNat :=
          Int64.toInt_ofInt_of_le (by omega) (by omega)
        exact ⟨_, hSame, by omega⟩
      · rintro ⟨k, hSame, _⟩
        have hHigh := k.toInt_lt
        omega
  | string s | other s =>
      simp only [IsItemCount, toInt64?, isFloat, true_and,
        Text.holdsCount_iff]
  | float x => simp [IsItemCount, isFloat]
  | time t => simp [IsItemCount, toInt64?]
  | span d => simp [IsItemCount, toInt64?]
  | array items => simp [IsItemCount, toInt64?]

namespace ResultOperator

/- Only a constant is counted by. -/
theorem itemCount_ok_iff
    (op : ResultOperator)
    (e : Expr) :
    (∃ n, itemCount op e = .ok n) ↔
      ∃ v, e = .constant v ∧ v.IsItemCount := by
  cases e with
  | constant v =>
      simp only [Expr.constant.injEq, exists_eq_left',
        Value.isItemCount_iff, itemCount]
      cases v.toInt64? with
      | none => simp
      | some k =>
          by_cases hCounts : 0 ≤ k.toInt ∧ v.isFloat = false
          · simp [hCounts]
          · simp only [if_neg hCounts, reduceCtorEq,
              exists_false, Option.some.injEq, exists_eq_left',
              false_iff]
            exact fun hOther => hCounts hOther.symm
  | _ => simp [itemCount]

theorem kept_ok_iff
    {α β : Type}
    (count : Except QueryError α)
    (keep : α → β) :
    (∃ kept, (do let n ← count; .ok (keep n)) =
        (.ok kept : Except QueryError β)) ↔
      ∃ n, count = .ok n := by
  cases count with
  | ok n => exact ⟨fun _ => ⟨n, rfl⟩, fun _ => ⟨keep n, rfl⟩⟩
  | error error =>
      constructor
      · rintro ⟨kept, ⟨⟩⟩
      · rintro ⟨n, ⟨⟩⟩

/- An operator is evaluated exactly if it has a number of items. -/
theorem evaluate_ok_iff
    {op : ResultOperator}
    {e : Expr}
    (hCount : op.count? = some e)
    {α : Type}
    (items : List α) :
    (∃ kept, op.evaluate items = .ok kept) ↔
      ∃ v, e = .constant v ∧ v.IsItemCount := by
  rw [← itemCount_ok_iff op]
  cases op with
  | take n | skip n | takeLast n =>
      cases Option.some.inj hCount
      exact kept_ok_iff _ _
  | any | count | longCount | first | last | single | sum | min
  | max | average | distinct => cases hCount

end ResultOperator

end TypedFlux

------------------------------------------------------------
-- Counts in Scripts
------------------------------------------------------------

namespace TypedFlux

/- An operator is supported exactly if it has a number of rows. -/
theorem ResultOperator.supported_iff
    {op : ResultOperator}
    {e : Expr}
    (hCount : op.count? = some e) :
    op.Supported ↔
      ∃ v, Drafting.constant? e = some v ∧ v.IsCount := by
  cases op with
  | take n | skip n | takeLast n =>
      cases Option.some.inj hCount
      exact Iff.rfl
  | any | count | longCount | first | last | single | sum | min
  | max | average | distinct => cases hCount

/- An operator on its own is taken up if it is supported. -/
theorem Draft.ofQuery_operator_ok_iff
    (bucket entity : String)
    (resolver : Resolver)
    (op : ResultOperator) :
    (∃ d, Draft.ofQuery bucket resolver ⟨entity, [], [op]⟩ =
        .ok d) ↔
      op.Supported := by
  have hUntailed : (Draft.new bucket).tailTaken = true →
      op.isLimit = false := by
    rintro ⟨⟩
  constructor
  · rintro ⟨d, hDraft⟩
    rcases ofQuery_eq_ok.mp hDraft with ⟨e, _, hOperators⟩
    rcases (Drafting.operators_ok_iff _).mp ⟨d, hOperators⟩
      with ⟨hSupported, _⟩
    exact hSupported op List.mem_cons_self
  · intro hSupported
    rcases (Drafting.operator_ok_iff op).mpr
      ⟨hSupported, hUntailed⟩ with ⟨d, hOperator⟩
    refine ⟨d, ofQuery_eq_ok.mpr ⟨Draft.new bucket, ?_, ?_⟩⟩
    · exact Step.forM_nil_eq_ok.mpr rfl
    · exact Step.forM_cons_eq_ok.mpr
        ⟨d, hOperator, Step.forM_nil_eq_ok.mpr rfl⟩

------------------------------------------------------------
-- Where Counts Differ
------------------------------------------------------------

/- A count in memory alone: a truth value or a text. -/
def Expr.CountsItemsOnly : Expr → Prop
  | .constant (.bool _) => True
  | .constant (.string s) | .constant (.other s) =>
      Text.HoldsCount s
  | _ => False

/-
  A count in scripts alone: past the signed range, or below a
  conversion.
-/
def Expr.CountsRowsOnly : Expr → Prop
  | .constant (.uint n) => 0x7fffffffffffffff < n.toNat
  | .unary .convert e =>
      ∃ v, Drafting.constant? e = some v ∧ v.IsCount
  | _ => False

theorem Expr.countsItemsOnly_iff
    (e : Expr) :
    e.CountsItemsOnly ↔
      (∃ v, e = .constant v ∧ v.IsItemCount) ∧
        ¬ ∃ v, Drafting.constant? e = some v ∧ v.IsCount := by
  cases e with
  | constant v =>
      cases v <;>
        simp [CountsItemsOnly, Value.IsItemCount, Value.IsCount,
          Drafting.constant?]
  | _ => simp [CountsItemsOnly]

theorem Expr.countsRowsOnly_iff
    (e : Expr) :
    e.CountsRowsOnly ↔
      (∃ v, Drafting.constant? e = some v ∧ v.IsCount) ∧
        ¬ ∃ v, e = .constant v ∧ v.IsItemCount := by
  cases e with
  | constant v =>
      cases v <;>
        simp [CountsRowsOnly, Value.IsItemCount, Value.IsCount,
          Drafting.constant?]
  | unary op operand =>
      cases op <;>
        simp [CountsRowsOnly, Drafting.constant?]
  | _ => simp [CountsRowsOnly, Drafting.constant?]

/-
  A script and the evaluation in memory accept the same counts
  except for those that only one of them knows.
-/
theorem ResultOperator.counts_agree_iff
    (bucket entity : String)
    (resolver : Resolver)
    (op : ResultOperator)
    (e : Expr)
    (hCount : op.count? = some e)
    {α : Type}
    (items : List α) :
    (((∃ d, Draft.ofQuery bucket resolver ⟨entity, [], [op]⟩ =
          .ok d) ↔
        ∃ kept, op.evaluate items = .ok kept) ↔
      ¬ e.CountsItemsOnly ∧ ¬ e.CountsRowsOnly) ∧
    (e.CountsItemsOnly ↔
      (∃ kept, op.evaluate items = .ok kept) ∧
        ¬ ∃ d, Draft.ofQuery bucket resolver
          ⟨entity, [], [op]⟩ = .ok d) ∧
    (e.CountsRowsOnly ↔
      (∃ d, Draft.ofQuery bucket resolver
          ⟨entity, [], [op]⟩ = .ok d) ∧
        ¬ ∃ kept, op.evaluate items = .ok kept) := by
  rw [Draft.ofQuery_operator_ok_iff, supported_iff hCount,
    evaluate_ok_iff hCount, e.countsItemsOnly_iff,
    e.countsRowsOnly_iff]
  refine ⟨?_, Iff.rfl, Iff.rfl⟩
  grind

/- The largest number that both take. -/
def largestCount : Expr := .constant (.uint 9223372036854775807)

theorem ResultOperator.counts_agree_iff_largestCount :
    (takeLast largestCount).count? = some largestCount ∧
      ((∃ d, Draft.ofQuery "metrics" deviceResolver
          ⟨"device", [], [takeLast largestCount]⟩ = .ok d) ↔
        ∃ kept,
          (takeLast largestCount).evaluate [1, 2, 3] =
            .ok kept) := by
  refine ⟨rfl, ?_⟩
  apply (counts_agree_iff "metrics" "device" deviceResolver
    (takeLast largestCount) largestCount rfl [1, 2, 3]).1.mpr
  constructor
  · exact not_false
  · show ¬ 0x7fffffffffffffff < 9223372036854775807
    omega

/- The smallest number that only a script takes. -/
def pastCount : Expr := .constant (.uint 9223372036854775808)

/-
  In memory a truth value counts and a large number does not;
  in a script it is the other way round.
-/
theorem ResultOperator.counts_differ_pastCount :
    ((take (.constant (.bool true))).evaluate [1, 2, 3] =
        .ok [1] ∧
      Draft.ofQuery "metrics" deviceResolver
          ⟨"device", [], [take (.constant (.bool true))]⟩ =
        .error (take (.constant (.bool true))).unsupported) ∧
    ((take pastCount).evaluate [1, 2, 3] =
        .error (.parse (.count "TakeResultOperator"
          (.uint 9223372036854775808))) ∧
      ∃ d, Draft.ofQuery "metrics" deviceResolver
          ⟨"device", [], [take pastCount]⟩ = .ok d) := by
  exact ⟨⟨rfl, rfl⟩, rfl, _, rfl⟩

end TypedFlux
