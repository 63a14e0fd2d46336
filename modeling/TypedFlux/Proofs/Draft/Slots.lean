import TypedFlux.Proofs.Draft.Readings
import TypedFlux.Proofs.Flux.Literals

/-
  The stages behind the filter, and the constants they name.

  Every key to sort by has a stage of its own.  The limit, its
  offset and the tail have one place each, so of several
  operators that fill the same place the last one stays.

  Key definitions include:
    * `Constant.Named`
    * `Slots`, `Query.slots`
    * `Draft.Fills`

  Key theorems include:
    * `Draft.ofQuery_fills`
    * `Draft.option?_of_named`
    * `Draft.filterMap_stages`
-/

------------------------------------------------------------
-- Slots
------------------------------------------------------------

namespace TypedFlux

namespace ResultOperator

/- Whether the first rows are kept. -/
def isTake : ResultOperator → Bool
  | .take _ => true
  | _ => false

/- Whether the first rows are left out. -/
def isSkip : ResultOperator → Bool
  | .skip _ => true
  | _ => false

/- The last constant of the operators of a kind. -/
def lastConstant?
    (p : ResultOperator → Bool)
    (ops : List ResultOperator) : Option Constant :=
  ((ops.filter p).flatMap constants).getLast?

/- A later operator of the kind replaces an earlier one. -/
theorem lastConstant?_cons
    (p : ResultOperator → Bool)
    (op : ResultOperator)
    (ops : List ResultOperator) :
    lastConstant? p (op :: ops) =
      (lastConstant? p ops).or (lastConstant? p [op]) := by
  unfold lastConstant?
  rw [← List.getLast?_append, ← List.flatMap_append,
    ← List.filter_append, List.singleton_append]

end ResultOperator

/- The constants so far, and what stands behind the filter. -/
structure Slots where
  constants : List Constant
  keys : List SortKey := []
  limit? : Option Constant := none
  offset? : Option Constant := none
  tail? : Option Constant := none

namespace Slots

open ResultOperator

/- One more key to sort by. -/
def addKey
    (slots : Slots)
    (key : SortKey) : Slots :=
  { slots with
    constants := slots.constants ++ [key.constant]
    keys := slots.keys ++ [key] }

/- One more clause. -/
def addClause
    (resolver : Resolver)
    (slots : Slots) : BodyClause → Slots
  | .filter predicate =>
      { slots with
        constants := slots.constants
          ++ predicate.constants resolver false }
  | .order keys => keys.foldl addKey slots

/- One more operator. -/
def addOperator
    (slots : Slots)
    (op : ResultOperator) : Slots where
  constants := slots.constants ++ op.constants
  keys := slots.keys
  limit? := (lastConstant? isTake [op]).or slots.limit?
  offset? := (lastConstant? isSkip [op]).or slots.offset?
  tail? := (lastConstant? isTail [op]).or slots.tail?

theorem foldl_addKey
    (keys : List SortKey)
    (slots : Slots) :
    keys.foldl addKey slots =
      { slots with
        constants := slots.constants
          ++ keys.map SortKey.constant
        keys := slots.keys ++ keys } := by
  induction keys generalizing slots with
  | nil => simp
  | cons key keys ih => simp [ih, addKey]

/- The slots of a body, clause by clause. -/
theorem foldl_addClause
    (resolver : Resolver)
    (entity : String)
    (body : List BodyClause)
    (slots : Slots) :
    body.foldl (addClause resolver) slots =
      { slots with
        constants := slots.constants
          ++ body.flatMap (·.constants resolver)
        keys := slots.keys
          ++ Query.sortKeys ⟨entity, body, []⟩ } := by
  induction body generalizing slots with
  | nil => simp [Query.sortKeys]
  | cons clause body ih =>
      cases clause with
      | filter predicate =>
          simp [ih, addClause, Query.sortKeys,
            BodyClause.constants]
      | order keys =>
          simp [ih, addClause, foldl_addKey, Query.sortKeys,
            BodyClause.constants]

/- What an operator of each kind puts into its slot. -/
theorem addOperator_take
    {n : Expr}
    {c : Constant}
    (slots : Slots)
    (hOwn : (ResultOperator.take n).constants = [c]) :
    slots.addOperator (.take n) =
      { slots with
        constants := slots.constants ++ [c]
        limit? := some c } := by
  simp [addOperator, lastConstant?, List.filter_cons, isTake,
    isSkip, hOwn]

theorem addOperator_skip
    {n : Expr}
    {c : Constant}
    (slots : Slots)
    (hOwn : (ResultOperator.skip n).constants = [c]) :
    slots.addOperator (.skip n) =
      { slots with
        constants := slots.constants ++ [c]
        offset? := some c } := by
  simp [addOperator, lastConstant?, List.filter_cons, isTake,
    isSkip, hOwn]

theorem addOperator_takeLast
    {n : Expr}
    {c : Constant}
    (slots : Slots)
    (hOwn : (ResultOperator.takeLast n).constants = [c]) :
    slots.addOperator (.takeLast n) =
      { slots with
        constants := slots.constants ++ [c]
        tail? := some c } := by
  simp [addOperator, lastConstant?, List.filter_cons, isTake,
    isSkip, hOwn]

/- The slots of operators, of which the last ones stay. -/
theorem foldl_addOperator
    (ops : List ResultOperator)
    (slots : Slots) :
    ops.foldl addOperator slots =
      { constants := slots.constants
          ++ ops.flatMap ResultOperator.constants
        keys := slots.keys
        limit? := (lastConstant? isTake ops).or slots.limit?
        offset? := (lastConstant? isSkip ops).or slots.offset?
        tail? := (lastConstant? isTail ops).or slots.tail? } := by
  induction ops generalizing slots with
  | nil => simp [lastConstant?]
  | cons op ops ih =>
      rw [List.foldl_cons, ih, lastConstant?_cons isTake,
        lastConstant?_cons isSkip, lastConstant?_cons isTail]
      simp [addOperator, Option.or_assoc]

end Slots

open ResultOperator in
/- What stands behind the filter of a query. -/
def Query.slots
    (bucket : String)
    (resolver : Resolver)
    (q : Query) : Slots where
  constants := q.constants bucket resolver
  keys := q.sortKeys
  limit? := lastConstant? isTake q.operators
  offset? := lastConstant? isSkip q.operators
  tail? := lastConstant? isTail q.operators

/- Slots are filled clause by clause, then by operators. -/
theorem Slots.foldl_eq_slots
    (bucket : String)
    (resolver : Resolver)
    (q : Query) :
    q.operators.foldl Slots.addOperator
        (q.body.foldl (Slots.addClause resolver)
          ⟨[{ value := .string bucket }, { value := .int 0 }],
            [], none, none, none⟩) =
      q.slots bucket resolver := by
  rw [foldl_addClause resolver q.entity, foldl_addOperator]
  simp [Query.slots, Query.constants, Query.sortKeys]

end TypedFlux

------------------------------------------------------------
-- Drafts Fill the Slots
------------------------------------------------------------

namespace TypedFlux

namespace Constant

/- A name stands for a constant. -/
def Named
    (cs : List Constant)
    (x : String)
    (c : Constant) : Prop :=
  ∃ n, x = Variables.nameAfter n ∧ cs[n]? = some c

/- A name stands for the same when constants are added. -/
theorem Named.append
    {cs : List Constant}
    {x : String}
    {c : Constant}
    (hNamed : Named cs x c)
    (more : List Constant) :
    Named (cs ++ more) x c := by
  rcases hNamed with ⟨n, hName, hConstant⟩
  refine ⟨n, hName, ?_⟩
  rw [List.getElem?_append_left, hConstant]
  exact (List.getElem?_eq_some_iff.mp hConstant).1

/- The last constant has the name behind all others. -/
theorem named_concat
    (cs : List Constant)
    (c : Constant) :
    Named (cs ++ [c]) (Variables.nameAfter cs.length) c :=
  ⟨cs.length, rfl, List.getElem?_concat_length⟩

/- The same of a slot that may be empty. -/
theorem named_or
    {cs : List Constant}
    {x? : Option String}
    {c? : Option Constant}
    (hNamed : Option.Rel (Named cs) x? c?)
    (more : List Constant) :
    Option.Rel (Named (cs ++ more)) x? c? := by
  cases hNamed with
  | none => exact .none
  | some hNamed => exact .some (hNamed.append more)

end Constant

open Constant

/- A stage sorts by a key. -/
structure SortColumn.Sorts
    (resolver : Resolver)
    (cs : List Constant)
    (sort : SortColumn)
    (key : SortKey) : Prop where
  column : sort.column = key.expr.sortColumn resolver
  descending : Named cs sort.descending key.constant

/- The stages of a draft behind its filter are these. -/
structure Draft.Fills
    (resolver : Resolver)
    (d : Draft)
    (slots : Slots) : Prop where
  numbers : d.scope.Numbers slots.constants
  sorts : List.Forall₂ (SortColumn.Sorts resolver slots.constants)
    d.pipeline.sorts slots.keys
  limit : Option.Rel (Named slots.constants) d.pipeline.limit?
    slots.limit?
  offset : Option.Rel (Named slots.constants) d.pipeline.offset?
    slots.offset?
  tail : Option.Rel (Named slots.constants) d.pipeline.tail?
    slots.tail?

namespace Draft

variable {resolver : Resolver}
variable {slots : Slots}
variable {d d' : Draft}

/- A new draft has two constants and no stages behind. -/
theorem new_fills
    (resolver : Resolver)
    (bucket : String) :
    (Draft.new bucket).Fills resolver
      ⟨[{ value := .string bucket }, { value := .int 0 }],
        [], none, none, none⟩ :=
  ⟨new_numbers bucket, .nil, .none, .none, .none⟩

/- Conditions change the filter only. -/
theorem pipeline_addConditions
    (d : Draft)
    (conditions : List String) :
    ∃ filters, (d.addConditions conditions).pipeline =
      { d.pipeline with filters } := by
  cases conditions with
  | nil => exact ⟨_, rfl⟩
  | cons first others => exact ⟨_, rfl⟩

/- More constants change nothing that was named before. -/
theorem Fills.extend
    {more : List Constant}
    (hFills : d.Fills resolver slots)
    (hNumbers : d'.scope.Numbers (slots.constants ++ more))
    (hSorts : d'.pipeline.sorts = d.pipeline.sorts)
    (hLimit : d'.pipeline.limit? = d.pipeline.limit?)
    (hOffset : d'.pipeline.offset? = d.pipeline.offset?)
    (hTail : d'.pipeline.tail? = d.pipeline.tail?) :
    d'.Fills resolver
      { slots with constants := slots.constants ++ more } := by
  constructor
  · exact hNumbers
  · rw [hSorts]
    exact hFills.sorts.imp fun _ _ hSorts =>
      ⟨hSorts.column, hSorts.descending.append more⟩
  · rw [hLimit]
    exact named_or hFills.limit more
  · rw [hOffset]
    exact named_or hFills.offset more
  · rw [hTail]
    exact named_or hFills.tail more

end Draft

namespace Drafting

open Draft TypedFlux.Expr

variable {resolver : Resolver}
variable {slots : Slots}
variable {d d' : Draft}

/- So a filter leaves the slots behind it as they are. -/
theorem filter_fills
    {predicate : Expr}
    (hFills : d.Fills resolver slots)
    (hFilter : filter resolver predicate d =
      (.ok PUnit.unit, d')) :
    d'.Fills resolver
      (slots.addClause resolver (.filter predicate)) := by
  have hNumbers := filter_numbers hFills.numbers hFilter
  rcases filter_eq_ok.mp hFilter with
    ⟨parts, s, conditions, e, hVisits, hRoutes, rfl⟩
  have hPipeline := (hRoutes.parts_eq hFills.numbers hVisits).2
  rcases e.pipeline_addConditions conditions with
    ⟨filters, hAdded⟩
  refine hFills.extend hNumbers ?_ ?_ ?_ ?_
  · rw [hAdded, hPipeline]
    rfl
  · rw [hAdded, hPipeline]
    rfl
  · rw [hAdded, hPipeline]
    rfl
  · rw [hAdded, hPipeline]
    rfl

/- A key fills the next place among the sorts. -/
theorem orderBy_fills
    {key : SortKey}
    (hFills : d.Fills resolver slots)
    (hOrder : orderBy resolver key d = (.ok PUnit.unit, d')) :
    d'.Fills resolver (slots.addKey key) := by
  have hNumbers := orderBy_numbers hFills.numbers hOrder
  rcases orderBy_eq_ok.mp hOrder with
    ⟨role, column, s, hVisits, rfl⟩
  have hColumn := hVisits.fits.column role column rfl
  have hName : s.options.nextName =
      Variables.nameAfter slots.constants.length := by
    rcases Option.map_eq_some_iff.mp hVisits.role?_eq.symm with
      ⟨name, hMember, _⟩
    have hWalked := hVisits.numbers hFills.numbers
    rw [constants_of_member? false hMember, List.append_nil]
      at hWalked
    exact hWalked.nextName_eq
  have hKept : (Draft.bind { d with scope := s }
      (.bool (key.direction == .descending))).Fills resolver
        { slots with
          constants := slots.constants ++ [key.constant] } :=
    hFills.extend hNumbers rfl rfl rfl rfl
  refine { hKept with sorts := ?_ }
  refine List.rel_append hKept.sorts (.cons ⟨hColumn, ?_⟩ .nil)
  rw [hName]
  exact named_concat _ _

/- Every clause fills what it says. -/
theorem clause_fills
    {c : BodyClause}
    (hFills : d.Fills resolver slots)
    (hClause : clause resolver c d = (.ok PUnit.unit, d')) :
    d'.Fills resolver (slots.addClause resolver c) := by
  cases c with
  | filter predicate => exact filter_fills hFills hClause
  | order keys =>
      have hStep : ∀ (key : SortKey) (d : Draft) (slots : Slots)
          (d' : Draft), d.Fills resolver slots →
          orderBy resolver key d = (.ok PUnit.unit, d') →
            d'.Fills resolver (slots.addKey key) :=
        fun _ _ _ _ => orderBy_fills
      exact Step.forM_follows
        (R := fun d slots => d.Fills resolver slots) hStep hFills
        hClause

/- So does every operator. -/
theorem operator_fills
    {op : ResultOperator}
    (hFills : d.Fills resolver slots)
    (hOperator : operator op d = (.ok PUnit.unit, d')) :
    d'.Fills resolver (slots.addOperator op) := by
  have hNumbers := operator_numbers hFills.numbers hOperator
  have hName := hFills.numbers.nextName_eq
  cases operates_iff.mp hOperator with
  | @take n value _ _ hConstant _ =>
      have hOwn : (ResultOperator.take n).constants = _ :=
        ResultOperator.constants_eq rfl hConstant
      rw [hOwn] at hNumbers
      have hKept : (d.bind value).Fills resolver _ :=
        hFills.extend hNumbers rfl rfl rfl rfl
      rw [slots.addOperator_take hOwn]
      refine { hKept with limit := .some ?_ }
      rw [hName]
      exact named_concat _ _
  | @skip n value _ _ hConstant _ =>
      have hOwn : (ResultOperator.skip n).constants = _ :=
        ResultOperator.constants_eq rfl hConstant
      rw [hOwn] at hNumbers
      have hKept : (d.bind value).Fills resolver _ :=
        hFills.extend hNumbers rfl rfl rfl rfl
      rw [slots.addOperator_skip hOwn]
      refine { hKept with offset := .some ?_ }
      rw [hName]
      exact named_concat _ _
  | @takeLast n value _ hConstant _ =>
      have hOwn : (ResultOperator.takeLast n).constants = _ :=
        ResultOperator.constants_eq rfl hConstant
      rw [hOwn] at hNumbers
      have hKept : (d.bind value).Fills resolver _ :=
        hFills.extend hNumbers rfl rfl rfl rfl
      rw [slots.addOperator_takeLast hOwn]
      refine { hKept with tail := .some ?_ }
      rw [hName]
      exact named_concat _ _
  | any | count | longCount =>
      exact hFills.extend hNumbers rfl rfl rfl rfl

end Drafting

namespace Draft

/- The stages of a query behind its filter. -/
theorem ofQuery_fills
    {bucket : String}
    {resolver : Resolver}
    {q : Query}
    {d : Draft}
    (hDraft : Draft.ofQuery bucket resolver q = .ok d) :
    d.Fills resolver (q.slots bucket resolver) := by
  rcases ofQuery_eq_ok.mp hDraft with ⟨e, hBody, hOperators⟩
  have hClause : ∀ (c : BodyClause) (d : Draft) (slots : Slots)
      (d' : Draft), d.Fills resolver slots →
      Drafting.clause resolver c d = (.ok PUnit.unit, d') →
        d'.Fills resolver (slots.addClause resolver c) :=
    fun _ _ _ _ => Drafting.clause_fills
  have hOperator : ∀ (op : ResultOperator) (d : Draft)
      (slots : Slots) (d' : Draft), d.Fills resolver slots →
      Drafting.operator op d = (.ok PUnit.unit, d') →
        d'.Fills resolver (slots.addOperator op) :=
    fun _ _ _ _ => Drafting.operator_fills
  have hAll := Step.forM_follows
    (R := fun d slots => d.Fills resolver slots) hOperator
    (Step.forM_follows
      (R := fun d slots => d.Fills resolver slots) hClause
      (new_fills resolver bucket) hBody)
    hOperators
  rw [Slots.foldl_eq_slots] at hAll
  exact hAll

/- The names of a scope can be read back. -/
theorem isName_of_numbers
    {cs : List Constant}
    {s : Scope}
    (hNumbers : s.Numbers cs) :
    ∀ v ∈ s.options, Lexeme.isName v.name = true := by
  rw [hNumbers]
  intro v hMem
  rcases List.mem_mapIdx.mp hMem with ⟨i, _, rfl⟩
  exact Flux.isName_nameAfter i

/- A constant is read back by its name. -/
theorem option?_of_named
    {cs : List Constant}
    {x : String}
    {c : Constant}
    {d : Draft}
    (hNumbers : d.scope.Numbers cs)
    (hNamed : Constant.Named cs x c)
    (hPlain :
      (Literal.ofValue c.isTag c.value).hasFloat = false) :
    d.script.option? x =
      some (Literal.ofValue c.isTag c.value).normal := by
  rcases hNamed with ⟨n, rfl, hConstant⟩
  have hOption := Flux.option?_statement
    (v := ⟨Variables.nameAfter n, c.value, c.isTag⟩)
    (Flux.isName_nameAfter n) hPlain
  rw [Script.option?_eq rfl (isName_of_numbers hNumbers),
    hNumbers, Variables.get?_ofConstants hConstant, Option.bind_some,
    hOption]
  rfl

/- What is read in the text of stages is read of a plan. -/
theorem filterMap_stages
    {β : Type}
    {bucket : String}
    {resolver : Resolver}
    {q : Query}
    {d : Draft}
    {f : String → Option β}
    {g : Stage → Option β}
    (hDraft : Draft.ofQuery bucket resolver q = .ok d)
    (hRead : ∀ stage, f stage.text = g stage) :
    ∃ plan : Plan, d.pipeline = plan.pipeline ∧
      (Scan.stages d.script.query).filterMap f =
        plan.stages.filterMap g := by
  rcases ofQuery_follows hDraft with ⟨plan, hPlan, _⟩
  refine ⟨plan, hPlan, ?_⟩
  change (Scan.stages d.pipeline.text).filterMap f = _
  rw [hPlan, plan.stages_text, List.filterMap_map]
  exact List.filterMap_congr fun stage _ => hRead stage

end Draft

end TypedFlux
