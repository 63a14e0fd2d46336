import TypedFlux.Proofs.Draft.Slots
import TypedFlux.Proofs.Flux.Arguments

/-
  The rows that operators keep.

  In memory the operators are applied one after the other.  A
  script leaves rows out first, then limits them, and takes the
  last ones at the end, and it does each of these at most once.
  So it keeps what the last operators of every kind keep.

  Key definitions include:
    * `Script.cutRows`
    * `Window`, `Window.extent`
    * `ResultOperator.decisive`

  Key theorems include:
    * `Window.evaluateAll_eq`
    * `Window.apply_eq_iff`
    * `Draft.cutRows_eq`
    * `Draft.cutRows_eq_evaluateAll_iff`
-/

------------------------------------------------------------
-- Rows of Scripts
------------------------------------------------------------

namespace TypedFlux

variable {α : Type}

namespace Flux

/- The number that an option or a numeral stands for. -/
def Count.value?
    (options : String → Option Literal) : Count → Option Nat
  | .number n => some n
  | .option x =>
      match options x with
      | some (.integer n) => some n.toInt.toNat
      | _ => none

@[simp] theorem Count.value?_number
    (options : String → Option Literal)
    (n : Nat) :
    (Count.number n).value? options = some n :=
  rfl

/- An option stands for a number. -/
def Stands
    (options : String → Option Literal)
    (x : String)
    (n : Nat) : Prop :=
  (Count.option x).value? options = some n

/-
  The rows that a stage keeps.  A limit leaves rows out before
  it counts them.
-/
def Cut.apply
    (options : String → Option Literal)
    (rows : List α) : Cut → Option (List α)
  | .limit count none => do
      let n ← count.value? options
      return rows.take n
  | .limit count (some offset) => do
      let n ← count.value? options
      let m ← offset.value? options
      return (rows.drop m).take n
  | .tail count => do
      let n ← count.value? options
      return rows.drop (rows.length - n)

end Flux

/- The rows that the stages of a script keep, one by one. -/
def Script.cutRows
    (s : Script)
    (rows : List α) : Option (List α) :=
  ((Scan.stages s.query).filterMap Flux.cut?).foldlM
    (fun rows cut => cut.apply s.option? rows) rows

end TypedFlux

------------------------------------------------------------
-- Windows
------------------------------------------------------------

namespace TypedFlux

variable {α : Type}

namespace ResultOperator

/- The operator has a constant number of rows. -/
def CountsRows (op : ResultOperator) : Prop :=
  ∃ n : Int64, 0 ≤ n.toInt ∧
    op.count? = some (.constant (.int n))

/- The number of rows that an operator has. -/
def number (op : ResultOperator) : Nat :=
  match op.count? with
  | some (.constant (.int n)) => n.toInt.toNat
  | _ => 0

/- Apply operators to items in memory, one after the other. -/
def evaluateAll
    (ops : List ResultOperator)
    (items : List α) : Except QueryError (List α) :=
  ops.foldlM (fun items op => op.evaluate items) items

/- The number of the last operator of a kind. -/
def lastNumber?
    (p : ResultOperator → Bool)
    (ops : List ResultOperator) : Option Nat :=
  (ops.filter p).getLast?.map number

/- The last operator of every kind, as a script has them. -/
def decisive (ops : List ResultOperator) : List ResultOperator :=
  (ops.filter isSkip).getLast?.toList
    ++ (ops.filter isTake).getLast?.toList
    ++ (ops.filter isTail).getLast?.toList

/- Where an operator stands in a script. -/
def rank : ResultOperator → Nat
  | .skip _ => 0
  | .take _ => 1
  | _ => 2

/- The rows that an operator keeps. -/
def keep
    (op : ResultOperator)
    (rows : List α) : List α :=
  match op with
  | .take _ => rows.take op.number
  | .skip _ => rows.drop op.number
  | .takeLast _ => rows.drop (rows.length - op.number)
  | _ => rows

end ResultOperator

/-
  A part of the rows: some are left out, of the others some are
  kept, and of these the last ones.
-/
@[ext]
structure Window where
  offset : Nat
  count : Nat
  last : Nat
deriving DecidableEq

namespace Window

open Stage

/- All rows. -/
def whole : Window :=
  ⟨0, mostRows, mostRows⟩

/- What an operator keeps of a window. -/
def add
    (w : Window)
    (op : ResultOperator) : Window :=
  match op with
  | .take _ => { w with count := min w.count op.number }
  | .skip _ =>
      { w with
        offset := w.offset + op.number
        count := w.count - op.number }
  | .takeLast _ => { w with last := min w.last op.number }
  | _ => w

/- What operators keep of all rows. -/
def ofOperators (ops : List ResultOperator) : Window :=
  ops.foldl add whole

/- The rows of a window. -/
def apply
    (w : Window)
    (rows : List α) : List α :=
  let kept := (rows.drop w.offset).take w.count
  kept.drop (kept.length - w.last)

/- A window without what lies behind the longest list. -/
def trim (w : Window) : Window :=
  let count := min w.count (mostRows - 1 - w.offset)
  ⟨w.offset, count, min count w.last⟩

/- What can be seen of a window.  Empty windows are the same. -/
def extent (w : Window) : Option Window :=
  if w.trim.last = 0 then none else some w.trim

variable {w : Window}
variable {rows : List α}

/- Nothing is lost at the end. -/
theorem apply_of_le
    (hLast : rows.length ≤ w.last) :
    w.apply rows = (rows.drop w.offset).take w.count := by
  have hKept : ((rows.drop w.offset).take w.count).length ≤
      w.last := by
    rw [List.length_take, List.length_drop]
    omega
  simp only [apply]
  rw [Nat.sub_eq_zero_of_le hKept, List.drop_zero]

/-
  An operator keeps a window of a window.  Rows are counted
  from the front only where none are lost at the end.
-/
theorem keep_apply
    {op : ResultOperator}
    (hFront : op.isLimit = true → rows.length ≤ w.last) :
    op.keep (w.apply rows) = (w.add op).apply rows := by
  cases op with
  | take e =>
      have hAdded : (w.add (.take e)).apply rows = _ :=
        apply_of_le (hFront rfl)
      rw [apply_of_le (hFront rfl), hAdded]
      simp only [ResultOperator.keep, add]
      rw [List.take_take, Nat.min_comm]
  | skip e =>
      have hAdded : (w.add (.skip e)).apply rows = _ :=
        apply_of_le (hFront rfl)
      rw [apply_of_le (hFront rfl), hAdded]
      simp only [ResultOperator.keep, add]
      rw [List.drop_take, List.drop_drop]
  | takeLast e =>
      simp only [ResultOperator.keep, apply, add]
      rw [List.drop_drop, List.length_drop]
      congr 1
      omega
  | any | count | longCount | first | last | single | sum | min
  | max | average | distinct => rfl

end Window

namespace ResultOperator

open Window

variable {op : ResultOperator}
variable {ops : List ResultOperator}
variable {rows : List α}

/- An operator that counts rows never fails. -/
theorem CountsRows.evaluate_eq
    (hCounts : op.CountsRows)
    (rows : List α) :
    op.evaluate rows = .ok (op.keep rows) := by
  rcases hCounts with ⟨n, hCount, hConstant⟩
  have hItems : ∀ op : ResultOperator,
      itemCount op (.constant (.int n)) = .ok n.toInt.toNat := by
    intro op
    simp [itemCount, Value.toInt64?, Value.isFloat, hCount]
  cases op with
  | take e | skip e | takeLast e =>
      rw [Option.some.inj hConstant]
      simp only [evaluate, hItems]
      rfl
  | any | count | longCount | first | last | single | sum | min
  | max | average | distinct => cases hConstant

/- Operators keep a window of a window. -/
theorem evaluateAll_apply
    {w : Window}
    (hCounts : ∀ op ∈ ops, op.CountsRows)
    (hOrder : ops.Pairwise fun earlier later =>
      earlier.isTail = true → later.isLimit = false)
    (hFront : w.last < rows.length →
      ∀ op ∈ ops, op.isLimit = false) :
    evaluateAll ops (w.apply rows) =
      .ok ((ops.foldl add w).apply rows) := by
  induction ops generalizing w with
  | nil => rfl
  | cons op ops ih =>
      rw [List.forall_mem_cons] at hCounts
      rw [List.pairwise_cons] at hOrder
      have hKeep : op.keep (w.apply rows) =
          (w.add op).apply rows := by
        apply keep_apply
        intro hLimit
        by_contra hLost
        have hNone := hFront (by omega) op List.mem_cons_self
        rw [hLimit] at hNone
        cases hNone
      -- Rows are lost at the end only by a tail, and behind it
      -- no rows are counted from the front.
      have hRest : (w.add op).last < rows.length →
          ∀ later ∈ ops, later.isLimit = false := by
        intro hLost later hMem
        cases op with
        | takeLast e => exact hOrder.1 later hMem rfl
        | take | skip | any | count | longCount | first | last
        | single | sum | min | max | average | distinct =>
            exact hFront hLost later (List.mem_cons_of_mem _ hMem)
      rw [evaluateAll, List.foldlM_cons, hCounts.1.evaluate_eq,
        hKeep]
      exact ih hCounts.2 hOrder.2 hRest

end ResultOperator

namespace Window

open Stage

variable {rows : List α}

/- The window of no operator is that of all rows. -/
theorem apply_whole
    (hShort : rows.length < mostRows) :
    whole.apply rows = rows := by
  have hLast : rows.length ≤ whole.last := Nat.le_of_lt hShort
  rw [apply_of_le hLast]
  exact List.take_of_length_le hLast

/- Operators keep the rows of their window. -/
theorem evaluateAll_eq
    {ops : List ResultOperator}
    (hCounts : ∀ op ∈ ops, op.CountsRows)
    (hOrder : ops.Pairwise fun earlier later =>
      earlier.isTail = true → later.isLimit = false)
    (hShort : rows.length < mostRows) :
    ResultOperator.evaluateAll ops rows =
      .ok ((ofOperators ops).apply rows) := by
  have hFront : whole.last < rows.length →
      ∀ op ∈ ops, op.isLimit = false := by
    intro hLost
    exact absurd hLost (Nat.not_lt_of_le (Nat.le_of_lt hShort))
  have hWhole := ResultOperator.evaluateAll_apply hCounts hOrder
    hFront
  rw [apply_whole hShort] at hWhole
  exact hWhole

/- What is trimmed, no list has. -/
theorem apply_trim
    (w : Window)
    (hShort : rows.length < mostRows) :
    w.trim.apply rows = w.apply rows := by
  have hKept : (rows.drop w.offset).take w.trim.count =
      (rows.drop w.offset).take w.count := by
    rw [List.take_eq_take_iff, List.length_drop]
    simp only [trim]
    omega
  have hLength : ((rows.drop w.offset).take w.count).length ≤
      w.trim.count := by
    rw [List.length_take, List.length_drop]
    simp only [trim]
    omega
  simp only [apply]
  rw [show w.trim.offset = w.offset from rfl, hKept]
  congr 1
  simp only [trim] at hLength ⊢
  omega

/- A window that keeps no last rows shows nothing. -/
theorem apply_of_last_eq_zero
    {w : Window}
    (hNone : w.last = 0)
    (rows : List α) :
    w.apply rows = [] := by
  simp only [apply, hNone, Nat.sub_zero, List.drop_length]

/- The positions in a window. -/
theorem apply_range
    (w : Window)
    (n : Nat) :
    w.apply (List.range n) =
      List.range'
        (w.offset + (min w.count (n - w.offset) - w.last))
        (min (min w.count (n - w.offset)) w.last) := by
  have hKept : ((List.range n).drop w.offset).take w.count =
      List.range' w.offset (min w.count (n - w.offset)) := by
    rw [List.take_drop, List.take_range, List.range_eq_range',
      List.drop_range', Nat.mul_one, Nat.zero_add]
    congr 1
    omega
  simp only [apply, hKept]
  rw [List.length_range', List.drop_range', Nat.mul_one]
  congr 1
  omega

/- A window has a row as soon as it begins. -/
theorem offset_le
    {w w' : Window}
    (hSome : w.trim.last ≠ 0)
    (hSame : w.apply (List.range (w.offset + 1)) =
      w'.apply (List.range (w.offset + 1))) :
    w'.offset ≤ w.offset := by
  rw [apply_range, apply_range, List.range'_inj] at hSame
  have hLength := hSame.1
  simp only [trim] at hSome
  omega

/- What is seen of a window in the longest list. -/
theorem trim_eq_trim
    {w w' : Window}
    (hOffset : w.offset = w'.offset)
    (hLast : w.trim.last = w'.trim.last)
    (hStart : w.offset + (w.trim.count - w.last) =
      w'.offset + (w'.trim.count - w'.last)) :
    w.trim = w'.trim := by
  have hCount : w.trim.count = w'.trim.count := by
    change min w.trim.count w.last = min w'.trim.count w'.last
      at hLast
    omega
  exact Window.ext hOffset hCount hLast

/- Two windows keep the same rows if the same is seen of them. -/
theorem apply_eq_iff
    (w w' : Window) :
    (∀ (α : Type) (rows : List α), rows.length < mostRows →
        w.apply rows = w'.apply rows) ↔
      w.extent = w'.extent := by
  constructor
  · intro hSame
    have hAt : ∀ n, n < mostRows →
        w.apply (List.range n) = w'.apply (List.range n) := by
      intro n hShort
      apply hSame
      rw [List.length_range]
      exact hShort
    -- The longest list shows where both windows end.  Where one
    -- begins is seen in the list that ends with its first row.
    have hLongest := hAt (mostRows - 1) (by decide)
    rw [apply_range, apply_range, List.range'_inj] at hLongest
    rcases hLongest with ⟨hLast, hStart⟩
    change w.trim.last = w'.trim.last at hLast
    unfold extent
    rw [hLast]
    split
    next => rfl
    next hSome' =>
      have hSome : w.trim.last ≠ 0 := by
        rw [hLast]
        exact hSome'
      have hRoom : ∀ {v : Window}, v.trim.last ≠ 0 →
          v.offset + 1 < mostRows := by
        intro v hSome
        simp only [trim] at hSome
        omega
      have hOffset : w.offset = w'.offset :=
        Nat.le_antisymm
          (offset_le hSome' (hAt _ (hRoom hSome')).symm)
          (offset_le hSome (hAt _ (hRoom hSome)))
      rw [trim_eq_trim hOffset hLast
        (hStart.resolve_left hSome)]
  · intro hSame α rows hShort
    rw [← w.apply_trim hShort, ← w'.apply_trim hShort]
    unfold extent at hSame
    split at hSame
    next hNone =>
      split at hSame
      next hNone' =>
        rw [apply_of_last_eq_zero hNone,
          apply_of_last_eq_zero hNone']
      next => cases hSame
    next =>
      split at hSame
      next => cases hSame
      next => rw [Option.some.inj hSame]

end Window

end TypedFlux

------------------------------------------------------------
-- Decisive Operators
------------------------------------------------------------

namespace TypedFlux

variable {α : Type}

namespace ResultOperator

open Stage

variable {ops : List ResultOperator}
variable {rows : List α}

theorem mem_filter_of_last
    {p : ResultOperator → Bool}
    {op : ResultOperator}
    (hMem : op ∈ (ops.filter p).getLast?.toList) :
    op ∈ ops ∧ p op = true := by
  rw [Option.mem_toList] at hMem
  exact List.mem_filter.mp (List.mem_of_getLast? hMem)

/- The decisive operators are among those of the query. -/
theorem mem_of_mem_decisive
    {op : ResultOperator}
    (hMem : op ∈ decisive ops) :
    op ∈ ops := by
  simp only [decisive, List.mem_append] at hMem
  rcases hMem with (hSkip | hTake) | hTail
  · exact (mem_filter_of_last hSkip).1
  · exact (mem_filter_of_last hTake).1
  · exact (mem_filter_of_last hTail).1

/- The last rows are taken behind all other operators. -/
theorem pairwise_decisive
    (ops : List ResultOperator) :
    (decisive ops).Pairwise fun earlier later =>
      earlier.isTail = true → later.isLimit = false := by
  have hOne : ∀ op? : Option ResultOperator,
      op?.toList.Pairwise fun earlier later =>
        earlier.isTail = true → later.isLimit = false := by
    intro op?
    cases op? <;> simp
  unfold decisive
  rw [List.pairwise_append, List.pairwise_append]
  refine ⟨⟨hOne _, hOne _, ?_⟩, hOne _, ?_⟩
  · intro earlier hSkip later _ hTail
    have hKind := (mem_filter_of_last hSkip).2
    cases earlier <;> cases hKind
    cases hTail
  · intro earlier _ later hTail _
    have hKind := (mem_filter_of_last hTail).2
    cases later <;> cases hKind
    rfl

/- Operators that stand as in a script are all decisive. -/
theorem decisive_eq_self
    (hCounts : ∀ op ∈ ops, op.CountsRows)
    (hRanks : ops.Pairwise fun earlier later =>
      earlier.rank < later.rank) :
    decisive ops = ops := by
  induction ops with
  | nil => rfl
  | cons op ops ih =>
      rw [List.forall_mem_cons] at hCounts
      rw [List.pairwise_cons] at hRanks
      have hRest := ih hCounts.2 hRanks.2
      have hNone : ∀ p : ResultOperator → Bool,
          (∀ other, p other = true → other.rank ≤ op.rank) →
            ops.filter p = [] := by
        intro p hKind
        rw [List.filter_eq_nil_iff]
        intro other hMem hOther
        exact absurd (hRanks.1 other hMem)
          (Nat.not_lt_of_le (hKind other hOther))
      unfold decisive at hRest ⊢
      cases op with
      | skip e =>
          have hSkip : ops.filter isSkip = [] := by
            apply hNone
            intro other hKind
            cases other <;> cases hKind
            exact Nat.le_refl _
          rw [hSkip] at hRest
          rw [List.filter_cons_of_pos rfl, hSkip,
            List.filter_cons_of_neg Bool.noConfusion,
            List.filter_cons_of_neg Bool.noConfusion]
          exact congrArg (ResultOperator.skip e :: ·) hRest
      | take e =>
          have hSkip : ops.filter isSkip = [] := by
            apply hNone
            intro other hKind
            cases other <;> cases hKind
            exact Nat.zero_le _
          have hTake : ops.filter isTake = [] := by
            apply hNone
            intro other hKind
            cases other <;> cases hKind
            exact Nat.le_refl _
          rw [hSkip, hTake] at hRest
          rw [List.filter_cons_of_neg Bool.noConfusion, hSkip,
            List.filter_cons_of_pos rfl, hTake,
            List.filter_cons_of_neg Bool.noConfusion]
          exact congrArg (ResultOperator.take e :: ·) hRest
      | takeLast e =>
          have hOthers : ops = [] := by
            rw [List.eq_nil_iff_forall_not_mem]
            intro other hMem
            have hRank := hRanks.1 other hMem
            cases other <;> simp [rank] at hRank
          rw [hOthers]
          rfl
      | any | count | longCount | first | last | single | sum
      | min | max | average | distinct =>
          rcases hCounts.1 with ⟨_, _, hConstant⟩
          cases hConstant

/-
  The last operator of a kind does what its number says.  Where
  there is none, all rows are kept.
-/
theorem foldlM_last
    {p : ResultOperator → Bool}
    (f : Nat → List α)
    (all : Nat)
    (hCounts : ∀ op ∈ ops, op.CountsRows)
    (hKeep : ∀ op, p op = true → op.keep rows = f op.number)
    (hAll : f all = rows) :
    (ops.filter p).getLast?.toList.foldlM
        (fun rows op => op.evaluate rows) rows =
      .ok (f ((lastNumber? p ops).getD all)) := by
  unfold lastNumber?
  cases hLast : (ops.filter p).getLast? with
  | none => exact congrArg Except.ok hAll.symm
  | some op =>
      have hMem := List.mem_filter.mp (List.mem_of_getLast? hLast)
      rw [Option.toList_some, List.foldlM_cons,
        (hCounts op hMem.1).evaluate_eq, hKeep op hMem.2]
      rfl

/- The decisive operators keep one window. -/
theorem evaluateAll_decisive
    (hCounts : ∀ op ∈ ops, op.CountsRows)
    (hShort : rows.length < mostRows) :
    evaluateAll (decisive ops) rows =
      .ok (Window.apply
        ⟨(lastNumber? isSkip ops).getD 0,
          (lastNumber? isTake ops).getD mostRows,
          (lastNumber? isTail ops).getD mostRows⟩ rows) := by
  have hSkip : (ops.filter isSkip).getLast?.toList.foldlM
      (fun rows op => op.evaluate rows) rows =
        .ok (rows.drop ((lastNumber? isSkip ops).getD 0)) := by
    refine foldlM_last (rows.drop ·) 0 hCounts ?_ List.drop_zero
    intro op hKind
    cases op <;> cases hKind
    rfl
  have hTake : ∀ {rows : List α}, rows.length < mostRows →
      (ops.filter isTake).getLast?.toList.foldlM
        (fun rows op => op.evaluate rows) rows =
          .ok (rows.take
            ((lastNumber? isTake ops).getD mostRows)) := by
    intro rows hShort
    refine foldlM_last (rows.take ·) mostRows hCounts ?_
      (List.take_of_length_le (by omega))
    intro op hKind
    cases op <;> cases hKind
    rfl
  have hTail : ∀ {rows : List α}, rows.length < mostRows →
      (ops.filter isTail).getLast?.toList.foldlM
        (fun rows op => op.evaluate rows) rows =
          .ok (rows.drop (rows.length -
            (lastNumber? isTail ops).getD mostRows)) := by
    intro rows hShort
    refine foldlM_last (fun n => rows.drop (rows.length - n))
      mostRows hCounts ?_ ?_
    · intro op hKind
      cases op <;> cases hKind
      rfl
    · rw [Nat.sub_eq_zero_of_le (by omega), List.drop_zero]
  have hOthers : ∀ n, (rows.drop n).length < mostRows := by
    intro n
    rw [List.length_drop]
    omega
  have hFirst : ∀ n m,
      ((rows.drop n).take m).length < mostRows :=
    fun n m => Nat.lt_of_le_of_lt (List.length_take_le' m _)
      (hOthers n)
  simp only [evaluateAll, decisive, List.foldlM_append, hSkip,
    hTake (hOthers _), hTail (hFirst _ _), bind, Except.bind]
  rfl

end ResultOperator

end TypedFlux

------------------------------------------------------------
-- Drafts Keep a Window
------------------------------------------------------------

namespace TypedFlux

variable {α : Type}

/- The limit and its offset, by their names. -/
def Pipeline.limitCuts :
    Option String → Option String → List Flux.Cut
  | none, none => []
  | count?, offset? =>
      [.limit ((count?.map .option).getD (.number Stage.mostRows))
        (offset?.map .option)]

/- The stages of a pipeline that keep rows. -/
def Pipeline.cuts (p : Pipeline) : List Flux.Cut :=
  limitCuts p.limit? p.offset?
    ++ (p.tail?.map fun x => .tail (.option x)).toList

namespace Plan

theorem filterMap_cut?
    (plan : Plan) :
    plan.stages.filterMap Stage.cut? = plan.pipeline.cuts := by
  have hLimit : (limitStages plan.limit? plan.offset?).filterMap
      Stage.cut? = Pipeline.limitCuts plan.pipeline.limit?
        plan.pipeline.offset? := by
    unfold pipeline
    cases plan.limit? <;> cases plan.offset? <;> rfl
  have hTail : (plan.tail?.map Stage.tail).toList.filterMap
      Stage.cut? = (plan.pipeline.tail?.map fun x =>
        .tail (.option x)).toList := by
    unfold pipeline
    cases plan.tail? <;> rfl
  simp only [stages, List.filterMap_append, hLimit, hTail,
    filterMap_filterStages (f := Stage.cut?) (fun _ => rfl),
    filterMap_sorts (f := Stage.cut?) (fun _ _ => rfl),
    filterMap_countStages (f := Stage.cut?) rfl rfl rfl,
    List.append_nil]
  rfl

end Plan

namespace Draft

open ResultOperator Stage

variable {bucket : String}
variable {resolver : Resolver}
variable {q : Query}
variable {d : Draft}

theorem filterMap_cut?
    (hDraft : Draft.ofQuery bucket resolver q = .ok d) :
    (Scan.stages d.script.query).filterMap Flux.cut? =
      d.pipeline.cuts := by
  rcases filterMap_stages hDraft Flux.cut?_text with
    ⟨plan, hPlan, hCuts⟩
  rw [hCuts, hPlan, plan.filterMap_cut?]

/- A name stands for the number of an operator. -/
theorem value?_of_named
    {p : ResultOperator → Bool}
    {ops : List ResultOperator}
    {cs : List Constant}
    {x? : Option String}
    (hNumbers : d.scope.Numbers cs)
    (hCounts : ∀ op ∈ ops, op.CountsRows)
    (hNamed : Option.Rel (Constant.Named cs) x?
      (lastConstant? p ops)) :
    Option.Rel (Flux.Stands d.script.option?) x?
      (lastNumber? p ops) := by
  unfold lastConstant? at hNamed
  unfold lastNumber?
  cases hLast : (ops.filter p).getLast? with
  | none =>
      rw [List.getLast?_eq_none_iff.mp hLast] at hNamed
      cases hNamed
      exact .none
  | some op =>
      have hMem := List.mem_filter.mp (List.mem_of_getLast? hLast)
      rcases hCounts op hMem.1 with ⟨n, hCount, hConstant⟩
      rcases List.getLast?_eq_some_iff.mp hLast with
        ⟨others, hOps⟩
      rw [hOps, List.flatMap_append, List.flatMap_singleton,
        constants_eq hConstant rfl, List.getLast?_concat]
        at hNamed
      cases hNamed with
      | some hNamed =>
          refine .some ?_
          have hOption := option?_of_named hNumbers hNamed rfl
          simp only [Flux.Stands, Flux.Count.value?, hOption,
            number, hConstant]
          rfl

/-
  The limit of a script drops the offset, then takes the
  count.
-/
theorem foldlM_limitCuts
    {options : String → Option Literal}
    {x? y? : Option String}
    {n? m? : Option Nat}
    {rows : List α}
    (hCount : Option.Rel (Flux.Stands options) x? n?)
    (hOffset : Option.Rel (Flux.Stands options) y? m?)
    (hShort : rows.length < mostRows) :
    (Pipeline.limitCuts x? y?).foldlM
        (fun rows cut => cut.apply options rows) rows =
      some ((rows.drop (m?.getD 0)).take
        (n?.getD mostRows)) := by
  have hAll : rows.take mostRows = rows :=
    List.take_of_length_le (Nat.le_of_lt hShort)
  cases hCount with
  | none =>
      cases hOffset with
      | none => simp [Pipeline.limitCuts, hAll]
      | some hOffset =>
          unfold Flux.Stands at hOffset
          simp [Pipeline.limitCuts, Flux.Cut.apply, hOffset]
  | some hCount =>
      unfold Flux.Stands at hCount
      cases hOffset with
      | none => simp [Pipeline.limitCuts, Flux.Cut.apply, hCount]
      | some hOffset =>
          unfold Flux.Stands at hOffset
          simp [Pipeline.limitCuts, Flux.Cut.apply, hCount,
            hOffset]

/- Its tail keeps rows from the end. -/
theorem foldlM_tailCut
    {options : String → Option Literal}
    {x? : Option String}
    {n? : Option Nat}
    {rows : List α}
    (hCount : Option.Rel (Flux.Stands options) x? n?)
    (hShort : rows.length < mostRows) :
    (x?.map fun x => Flux.Cut.tail (.option x)).toList.foldlM
        (fun rows cut => cut.apply options rows) rows =
      some (rows.drop (rows.length - n?.getD mostRows)) := by
  cases hCount with
  | none =>
      simp [Nat.sub_eq_zero_of_le (Nat.le_of_lt hShort)]
  | some hCount =>
      unfold Flux.Stands at hCount
      simp [Flux.Cut.apply, hCount]

/- A script keeps what the decisive operators keep. -/
theorem cutRows_eq
    (hDraft : Draft.ofQuery bucket resolver q = .ok d)
    (hCounts : ∀ op ∈ q.operators, op.CountsRows)
    {rows : List α}
    (hShort : rows.length < mostRows) :
    d.script.cutRows rows = some (Window.apply
      ⟨(lastNumber? isSkip q.operators).getD 0,
        (lastNumber? isTake q.operators).getD mostRows,
        (lastNumber? isTail q.operators).getD mostRows⟩
      rows) := by
  have hFills := ofQuery_fills hDraft
  have hLimit := value?_of_named hFills.numbers hCounts
    hFills.limit
  have hOffset := value?_of_named hFills.numbers hCounts
    hFills.offset
  have hTail := value?_of_named hFills.numbers hCounts
    hFills.tail
  unfold Script.cutRows
  rw [filterMap_cut? hDraft, Pipeline.cuts, List.foldlM_append,
    foldlM_limitCuts hLimit hOffset hShort, Option.bind_eq_bind,
    Option.bind_some, foldlM_tailCut hTail]
  · rfl
  · rw [List.length_take, List.length_drop]
    omega

/- In a query that is translated no limit follows a tail. -/
theorem pairwise_operators
    (hDraft : Draft.ofQuery bucket resolver q = .ok d) :
    q.operators.Pairwise fun earlier later =>
      earlier.isTail = true → later.isLimit = false := by
  rcases ofQuery_eq_ok.mp hDraft with ⟨e, _, hOperators⟩
  exact ((Drafting.operators_ok_iff q.operators).mp
    ⟨d, hOperators⟩).2.1

/-
  A script keeps the rows that its decisive operators keep.  So
  it keeps those that all operators keep one after the other
  exactly if the same is seen of the windows of both.  Nothing
  is lost where every kind stands at most once and in its place.
-/
theorem cutRows_eq_evaluateAll_iff
    (bucket : String)
    (resolver : Resolver)
    (q : Query)
    (d : Draft)
    (hDraft : Draft.ofQuery bucket resolver q = .ok d)
    (hCounts : ∀ op ∈ q.operators, op.CountsRows) :
    (∀ (α : Type) (rows : List α), rows.length < mostRows →
      ∃ kept, d.script.cutRows rows = some kept ∧
        evaluateAll (decisive q.operators) rows = .ok kept) ∧
    ((∀ (α : Type) (rows : List α), rows.length < mostRows →
        ∃ kept, d.script.cutRows rows = some kept ∧
          evaluateAll q.operators rows = .ok kept) ↔
      (Window.ofOperators q.operators).extent =
        (Window.ofOperators (decisive q.operators)).extent) ∧
    (q.operators.Pairwise
        (fun earlier later => earlier.rank < later.rank) →
      decisive q.operators = q.operators) := by
  have hDecisive : ∀ {α : Type} {rows : List α},
      rows.length < mostRows →
        evaluateAll (decisive q.operators) rows = .ok
          ((Window.ofOperators (decisive q.operators)).apply
            rows) :=
    Window.evaluateAll_eq
      (fun op hMem => hCounts op (mem_of_mem_decisive hMem))
      (pairwise_decisive q.operators)
  have hScript : ∀ {α : Type} {rows : List α},
      rows.length < mostRows →
        d.script.cutRows rows = some
          ((Window.ofOperators (decisive q.operators)).apply
            rows) := by
    intro α rows hShort
    have hWindow := hDecisive hShort
    rw [evaluateAll_decisive hCounts hShort] at hWindow
    rw [cutRows_eq hDraft hCounts hShort, Except.ok.inj hWindow]
  have hMemory : ∀ {α : Type} {rows : List α},
      rows.length < mostRows →
        evaluateAll q.operators rows = .ok
          ((Window.ofOperators q.operators).apply rows) :=
    Window.evaluateAll_eq hCounts (pairwise_operators hDraft)
  rw [← Window.apply_eq_iff]
  refine ⟨?_, ⟨?_, ?_⟩, decisive_eq_self hCounts⟩
  · intro α rows hShort
    exact ⟨_, hScript hShort, hDecisive hShort⟩
  · intro hSame α rows hShort
    rcases hSame α rows hShort with ⟨kept, hKept, hKept'⟩
    rw [hScript hShort] at hKept
    rw [hMemory hShort] at hKept'
    rw [Except.ok.inj hKept', Option.some.inj hKept]
  · intro hSame α rows hShort
    refine ⟨_, hScript hShort, ?_⟩
    rw [hMemory hShort, hSame α rows hShort]

/- Operators are repeated, but each is stricter than before. -/
def narrowingQuery : Query where
  entity := "device"
  body := [
    .filter (.binary .equal (.member "level")
      (.constant (.int 9))),
    .order [⟨.member "at", .descending⟩]]
  operators := [
    .skip (.constant (.int 1)),
    .take (.constant (.int 4)),
    .take (.constant (.int 2)),
    .takeLast (.constant (.int 3)),
    .takeLast (.constant (.int 1))]

theorem countsRows_narrowingQuery :
    ∀ op ∈ narrowingQuery.operators, op.CountsRows := by
  simp only [narrowingQuery, List.forall_mem_cons]
  exact ⟨⟨1, by decide, rfl⟩, ⟨4, by decide, rfl⟩,
    ⟨2, by decide, rfl⟩, ⟨3, by decide, rfl⟩,
    ⟨1, by decide, rfl⟩, by simp⟩

/- A query whose every operator narrows what is before it. -/
theorem cutRows_eq_evaluateAll_iff_narrowingQuery :
    ∃ d,
      Draft.ofQuery "b" deviceResolver narrowingQuery = .ok d ∧
      (∀ op ∈ narrowingQuery.operators, op.CountsRows) ∧
      ∀ (α : Type) (rows : List α), rows.length < mostRows →
        ∃ kept, d.script.cutRows rows = some kept ∧
          evaluateAll narrowingQuery.operators rows = .ok kept :=
  ⟨_, rfl, countsRows_narrowingQuery,
    (cutRows_eq_evaluateAll_iff "b" deviceResolver narrowingQuery
      _ rfl countsRows_narrowingQuery).2.1.mpr (by decide)⟩

/- Five rows are taken, then two of them are left out. -/
def takeSkipQuery : Query where
  entity := "device"
  body := []
  operators := [
    .take (.constant (.int 5)),
    .skip (.constant (.int 2))]

/- A script leaves rows out before it takes any. -/
theorem cutRows_ne_evaluateAll_takeSkipQuery :
    ∃ d,
      Draft.ofQuery "b" deviceResolver takeSkipQuery = .ok d ∧
      d.script.cutRows (List.range 9) = some [2, 3, 4, 5, 6] ∧
      evaluateAll takeSkipQuery.operators (List.range 9) =
        .ok [2, 3, 4] := by
  have hCounts : ∀ op ∈ takeSkipQuery.operators,
      op.CountsRows := by
    simp only [takeSkipQuery, List.forall_mem_cons]
    exact ⟨⟨5, by decide, rfl⟩, ⟨2, by decide, rfl⟩, by simp⟩
  rcases (⟨_, rfl⟩ : ∃ d, Draft.ofQuery "b" deviceResolver
    takeSkipQuery = .ok d) with ⟨d, hDraft⟩
  exact ⟨d, hDraft, cutRows_eq hDraft hCounts (by decide), rfl⟩

end Draft

end TypedFlux
