import TypedFlux.Proofs.Draft.Slots
import TypedFlux.Proofs.Flux.Sorting

/-
  The order of the rows of a query.

  A script sorts the rows by one key after the other, in the
  order of the keys.  So the last key comes first in the end,
  and the first key decides only among rows that are tied in
  all others.

  Key definitions include:
    * `Query.orders`

  Key theorems include:
    * `Draft.keys?_script`
    * `Draft.sortRows_lexicographic_iff`
-/

------------------------------------------------------------
-- Keys of Queries
------------------------------------------------------------

namespace TypedFlux

open SortBy

/- The column of a key and its direction. -/
def SortKey.sortBy
    (resolver : Resolver)
    (key : SortKey) : SortBy :=
  ⟨key.expr.sortColumn resolver, key.direction == .descending⟩

/- The keys of a query, in their order. -/
def Query.orders
    (resolver : Resolver)
    (q : Query) : List SortBy :=
  q.sortKeys.map (·.sortBy resolver)

/- The sorts of a plan are its stages that sort. -/
theorem Plan.filterMap_sort?
    (plan : Plan) :
    plan.stages.filterMap Stage.sort? = plan.pipeline.sorts := by
  have hSorts : (plan.sorts.map fun s =>
      Stage.sort s.1 s.2).filterMap Stage.sort? =
        plan.pipeline.sorts := by
    simp [List.filterMap_map, Function.comp_def, Stage.sort?,
      pipeline]
  simp only [stages, List.filterMap_append, hSorts,
    filterMap_filterStages (f := Stage.sort?) (fun _ => rfl),
    filterMap_limitStages (f := Stage.sort?) (fun _ _ => rfl),
    filterMap_tail (f := Stage.sort?) (fun _ => rfl),
    filterMap_countStages (f := Stage.sort?) rfl rfl rfl,
    List.append_nil]
  rfl

namespace Draft

variable {bucket : String}
variable {resolver : Resolver}
variable {q : Query}
variable {d : Draft}

/- The direction of a key is the option that its stage names. -/
theorem key?_of_sorts
    {cs : List Constant}
    {sort : SortColumn}
    {key : SortKey}
    (hNumbers : d.scope.Numbers cs)
    (hSorts : sort.Sorts resolver cs key) :
    sort.key? d.script.option? = some (key.sortBy resolver) := by
  have hOption := option?_of_named hNumbers hSorts.descending rfl
  simp only [SortColumn.key?, hOption, hSorts.column]
  rfl

theorem mapM_key?
    {cs : List Constant}
    {sorts : List SortColumn}
    {keys : List SortKey}
    (hNumbers : d.scope.Numbers cs)
    (hSorts : List.Forall₂ (SortColumn.Sorts resolver cs)
      sorts keys) :
    sorts.mapM (·.key? d.script.option?) =
      some (keys.map (·.sortBy resolver)) := by
  induction hSorts with
  | nil => rfl
  | cons hSort _ ih =>
      rw [List.mapM_cons, key?_of_sorts hNumbers hSort, ih]
      rfl

/- The keys of a query are read back from its script. -/
theorem keys?_script
    (hDraft : Draft.ofQuery bucket resolver q = .ok d) :
    d.script.keys? = some (q.orders resolver) := by
  have hFills := ofQuery_fills hDraft
  rcases filterMap_stages hDraft Flux.sort?_text with
    ⟨plan, hPlan, hSorts⟩
  unfold Script.keys?
  rw [hSorts, plan.filterMap_sort?, ← hPlan]
  exact mapM_key? hFills.numbers hFills.sorts

/- A script sorts by the keys of its query, in turn. -/
theorem sortRows_eq
    {α : Type}
    (hDraft : Draft.ofQuery bucket resolver q = .ok d)
    (sorter : Sorter α)
    (order : String → Comparison α)
    (rows : List α) :
    d.script.sortRows sorter order rows =
      some (sorter.sortAll order (q.orders resolver) rows) := by
  unfold Script.sortRows
  rw [keys?_script hDraft]
  rfl

/-
  The rows of a script are in the order of its keys from the
  last to the first.  So they are in the order from the first to
  the last exactly if both begin with the same columns.
-/
theorem sortRows_lexicographic_iff
    (bucket : String)
    (resolver : Resolver)
    (q : Query)
    (d : Draft)
    (hDraft : Draft.ofQuery bucket resolver q = .ok d) :
    (∀ (α : Type) (sorter : Sorter α)
      (order : String → Comparison α) (rows : List α),
      ∃ sorted, d.script.sortRows sorter order rows =
          some sorted ∧
        StableSort
          (lexicographic order (q.orders resolver).reverse)
          rows sorted) ∧
    ((∀ (α : Type) (sorter : Sorter α)
        (order : String → Comparison α) (rows : List α),
        ∃ sorted, d.script.sortRows sorter order rows =
            some sorted ∧
          StableSort (lexicographic order (q.orders resolver))
            rows sorted) ↔
      leading (q.orders resolver) =
        leading (q.orders resolver).reverse) := by
  refine ⟨?_, ?_, ?_⟩
  · intro α sorter order rows
    exact ⟨_, sortRows_eq hDraft sorter order rows,
      sorter.stableSort_sortAll order _ rows⟩
  · intro hClaimed
    apply leading_eq
    intro x y
    rcases hClaimed _ Sorter.merge flags [x, y] with
      ⟨sorted, hSorted, hOrder⟩
    rw [sortRows_eq hDraft] at hSorted
    cases hSorted
    exact hOrder.le_eq (Sorter.merge.stableSort_sortAll flags _ _)
  · intro hLeading α sorter order rows
    refine ⟨_, sortRows_eq hDraft sorter order rows, ?_⟩
    rw [← lexicographic_leading, hLeading, lexicographic_leading]
    exact sorter.stableSort_sortAll order _ rows

/- The last key repeats the first, so it changes nothing. -/
def mirroredQuery : Query where
  entity := "device"
  body := [
    .order [⟨.member "at", .descending⟩,
      ⟨.member "level", .ascending⟩],
    .filter (.binary .equal (.member "site")
      (.constant (.string "\"n"))),
    .order [⟨.member "at", .descending⟩]]
  operators := [.take (.constant (.int 3))]

/- Both directions begin with the same two columns. -/
theorem sortRows_lexicographic_iff_mirroredQuery :
    ∃ d,
      Draft.ofQuery "b" deviceResolver mirroredQuery = .ok d ∧
      (mirroredQuery.orders deviceResolver).length = 3 ∧
      ∀ (α : Type) (sorter : Sorter α)
        (order : String → Comparison α) (rows : List α),
        ∃ sorted, d.script.sortRows sorter order rows =
            some sorted ∧
          StableSort (lexicographic order
            (mirroredQuery.orders deviceResolver)) rows sorted :=
  ⟨_, rfl, rfl, (sortRows_lexicographic_iff "b" deviceResolver
    mirroredQuery _ rfl).2.mpr (by decide)⟩

/- A second key for rows of the same site. -/
def secondKeyQuery : Query where
  entity := "device"
  body := [
    .order [⟨.member "site", .ascending⟩,
      ⟨.member "level", .ascending⟩]]
  operators := []

/- The second key comes first, whatever the first one says. -/
theorem not_stableSort_secondKeyQuery :
    ∃ d,
      Draft.ofQuery "b" deviceResolver secondKeyQuery = .ok d ∧
      ∀ sorter : Sorter (String → Bool),
        d.script.sortRows sorter flags
          [(· == "level"), (· == "site")] =
            some [(· == "site"), (· == "level")] ∧
        ¬ StableSort (lexicographic flags
          (secondKeyQuery.orders deviceResolver))
          [(· == "level"), (· == "site")]
          [(· == "site"), (· == "level")] := by
  rcases (⟨_, rfl⟩ : ∃ d, Draft.ofQuery "b" deviceResolver
    secondKeyQuery = .ok d) with ⟨d, hDraft⟩
  have hDiffer : ((· == "level") : String → Bool) ≠
      (· == "site") := by
    intro hSame
    exact absurd (congrFun hSame "site") (by decide)
  refine ⟨d, hDraft, fun sorter => ⟨?_, ?_⟩⟩
  · have hPair := (sorter.stableSort_sortAll flags
      (secondKeyQuery.orders deviceResolver) _).pair hDiffer
    rw [sortRows_eq hDraft, hPair]
    rfl
  · intro hSort
    have hPair := hSort.pair hDiffer
    exact hDiffer.symm (List.cons.inj hPair).1

end Draft

end TypedFlux
