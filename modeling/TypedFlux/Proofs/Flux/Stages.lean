import TypedFlux.Flux.Variables
import TypedFlux.Proofs.Flux.Scanning

/-
  The stages that a pipeline should have.

  A plan is a pipeline in which every bound and every number is
  a variable, and every condition closes what it opens.  The
  stages of a plan are found again in the text of its pipeline,
  whatever its columns are called.

  Key definitions include:
    * `StageKind`, `Outline`, `Outline.kinds`
    * `Stage`, `Stage.text`
    * `Plan`, `Plan.pipeline`, `Plan.stages`

  Key theorems include:
    * `Stage.whole_text`
    * `Plan.stages_text`
    * `Plan.kind_stages`
-/

------------------------------------------------------------
-- Kinds of Stages
------------------------------------------------------------

namespace TypedFlux

/- What a stage does; a sort goes by a column. -/
inductive StageKind where
  | source
  | range
  | pivot
  | filter
  | sort (column : String)
  | limit
  | tail
  | runningCount
  | lastRow
  | keepCount
deriving DecidableEq, Repr

/- What is asked of the rows, without any constants. -/
structure Outline where
  filtered : Bool := false
  sorted : List String := []
  limited : Bool := false
  tailed : Bool := false
  counted : Bool := false
deriving DecidableEq, Repr

/- The stages that do what is asked, in their order. -/
def Outline.kinds (o : Outline) : List StageKind :=
  [.source, .range, .pivot]
    ++ (if o.filtered then [.filter] else [])
    ++ o.sorted.map .sort
    ++ (if o.limited then [.limit] else [])
    ++ (if o.tailed then [.tail] else [])
    ++ (if o.counted then
        [.runningCount, .lastRow, .keepCount]
      else [])

------------------------------------------------------------
-- Stages
------------------------------------------------------------

/- A condition of a filter. -/
structure Condition where
  text : String
  closed : Scan.Closed text.toList

/- A stage, with its variables by their positions. -/
inductive Stage where
  | source (bucket : Nat)
  | range (start : Nat) (stop? : Option Nat)
  | pivot
  | filter (conditions : List Condition)
  | sort (column : String) (descending : Nat)
  | limit (count? offset? : Option Nat)
  | tail (count : Nat)
  | runningCount
  | lastRow
  | keepCount

namespace Stage

open Variables

/- What a stage does. -/
def kind : Stage → StageKind
  | .source _ => .source
  | .range _ _ => .range
  | .pivot => .pivot
  | .filter _ => .filter
  | .sort column _ => .sort column
  | .limit _ _ => .limit
  | .tail _ => .tail
  | .runningCount => .runningCount
  | .lastRow => .lastRow
  | .keepCount => .keepCount

/- A function with named arguments. -/
def call
    (function : String)
    (arguments : List (String × String)) : String :=
  function ++ "("
    ++ ", ".intercalate (arguments.map fun a => a.1 ++ ": " ++ a.2)
    ++ ")"

/- An argument for a variable that may be absent. -/
def optional
    (argument : String)
    (position? : Option Nat) : List (String × String) :=
  (position?.map fun n => (argument, nameAfter n)).toList

/- The text of a stage. -/
def text : Stage → String
  | .source bucket => call "from" [("bucket", nameAfter bucket)]
  | .range start stop? =>
      call "range"
        (("start", nameAfter start) :: optional "stop" stop?)
  | .pivot =>
      "pivot(rowKey:[\"_time\"], columnKey: [\"_field\"], "
        ++ "valueColumn: \"_value\")"
  | .filter conditions =>
      call "filter"
        [("fn", "(r) => "
          ++ " and ".intercalate (conditions.map (·.text)))]
  | .sort column descending =>
      call "sort"
        [("columns", "[" ++ Flux.quote column ++ "]"),
          ("desc", nameAfter descending)]
  | .limit count? offset? =>
      call "limit"
        (("n", (count?.map nameAfter).getD "9223372036854775807")
          :: optional "offset" offset?)
  | .tail count => call "tail" [("n", nameAfter count)]
  | .runningCount =>
      call "stateCount"
        [("fn", "(r) => true"),
          ("column", "\"linq_result_column\"")]
  | .lastRow =>
      call "last" [("column", "\"linq_result_column\"")]
  | .keepCount =>
      call "keep" [("columns", "[\"linq_result_column\"]")]

end Stage

end TypedFlux

------------------------------------------------------------
-- Stages Are Whole
------------------------------------------------------------

namespace TypedFlux

namespace Scan

theorem isPlain_of_isDigit
    {c : Char}
    (hDigit : c.isDigit = true) :
    isPlain c = true := by
  have hOther : ∀ d : Char, d.isDigit = false → c ≠ d := by
    rintro d hNoDigit rfl
    simp [hDigit] at hNoDigit
  simp [isPlain, hOther '\x22' rfl, hOther '(' rfl,
    hOther ')' rfl]

/- A name has no bracket or quote that stays open. -/
theorem closed_nameAfter
    (n : Nat) :
    Closed (Variables.nameAfter n).toList := by
  unfold Variables.nameAfter
  rw [String.toList_append]
  refine (closed_of_isPlain rfl).append (closed_of_isPlain ?_)
  rw [List.all_eq_true]
  intro c hMem
  exact isPlain_of_isDigit (Lexeme.isDigit_of_mem_ofNat hMem)

end Scan

namespace Stage

open Scan

/- A call is whole if its arguments are closed. -/
theorem whole_call
    {function : String}
    {arguments : List (String × String)}
    (hFunction : function.toList.all
      (fun c => isPlain c && c != ' ') = true)
    (hArguments : ∀ a ∈ arguments,
      a.1.toList.all isPlain = true ∧ Closed a.2.toList) :
    Whole (call function arguments).toList := by
  have hText : (call function arguments).toList =
      function.toList ++ '(' :: ((", ".intercalate
        (arguments.map fun a => a.1 ++ ": " ++ a.2)).toList
        ++ [')']) := by
    simp [call]
  rw [hText]
  apply Scan.whole_call hFunction
  apply closed_join (closed_of_isPlain rfl)
  intro s hMem
  rcases List.mem_map.mp hMem with ⟨a, hArgument, rfl⟩
  rcases hArguments a hArgument with ⟨hName, hValue⟩
  simp only [String.toList_append]
  exact ((closed_of_isPlain hName).append
    (closed_of_isPlain rfl)).append hValue

/- An argument that may be left out is closed, too. -/
theorem closed_optional
    {argument : String}
    (hName : argument.toList.all isPlain = true)
    (position? : Option Nat) :
    ∀ a ∈ optional argument position?,
      a.1.toList.all isPlain = true ∧ Closed a.2.toList := by
  cases position? with
  | none => simp [optional]
  | some n =>
      intro a hMem
      rw [List.mem_singleton.mp hMem]
      exact ⟨hName, closed_nameAfter n⟩

/- The conditions of a filter are closed together. -/
theorem closed_conditions
    (conditions : List Condition) :
    Closed
      (" and ".intercalate (conditions.map (·.text))).toList := by
  apply closed_join (closed_of_isPlain rfl)
  intro s hMem
  rcases List.mem_map.mp hMem with ⟨c, _, rfl⟩
  exact c.closed

/- A row is bound in front of what is said of it. -/
theorem closed_lambda
    {s : String}
    (hClosed : Closed s.toList) :
    Closed ("(r) => " ++ s).toList := by
  rw [String.toList_append]
  have hRow : Closed ['(', 'r', ')'] :=
    closed_paren (@closed_of_isPlain ['r'] rfl)
  have hArrow : Closed " => ".toList := closed_of_isPlain rfl
  exact (hRow.append hArrow).append hClosed

/- A column stands in brackets and in quotes. -/
theorem closed_columns
    (column : String) :
    Closed ("[" ++ Flux.quote column ++ "]").toList := by
  simp only [String.toList_append]
  exact ((closed_of_isPlain rfl).append
    (closed_quote column)).append (closed_of_isPlain rfl)

/- No stage begins or ends another. -/
theorem whole_text
    (stage : Stage) :
    Whole stage.text.toList := by
  cases stage with
  | source bucket =>
      refine whole_call rfl ?_
      simp only [List.mem_singleton, forall_eq]
      exact ⟨rfl, closed_nameAfter bucket⟩
  | range start stop? =>
      refine whole_call rfl ?_
      simp only [List.forall_mem_cons]
      exact ⟨⟨rfl, closed_nameAfter start⟩,
        closed_optional rfl stop?⟩
  | pivot =>
      exact ⟨by decide, by decide⟩
  | filter conditions =>
      refine whole_call rfl ?_
      simp only [List.mem_singleton, forall_eq]
      exact ⟨rfl, closed_lambda (closed_conditions conditions)⟩
  | sort column descending =>
      refine whole_call rfl ?_
      simp only [List.forall_mem_cons]
      exact ⟨⟨rfl, closed_columns column⟩,
        ⟨rfl, closed_nameAfter descending⟩, by simp⟩
  | limit count? offset? =>
      refine whole_call rfl ?_
      simp only [List.forall_mem_cons]
      refine ⟨⟨rfl, ?_⟩, closed_optional rfl offset?⟩
      cases count? with
      | none => exact closed_of_isPlain rfl
      | some n => exact closed_nameAfter n
  | tail count =>
      refine whole_call rfl ?_
      simp only [List.mem_singleton, forall_eq]
      exact ⟨rfl, closed_nameAfter count⟩
  | runningCount =>
      refine whole_call rfl ?_
      have hTrue : Closed "true".toList := closed_of_isPlain rfl
      simp only [List.forall_mem_cons]
      exact ⟨⟨rfl, closed_lambda hTrue⟩,
        ⟨rfl, closed_quote "linq_result_column"⟩, by simp⟩
  | lastRow =>
      refine whole_call rfl ?_
      simp only [List.mem_singleton, forall_eq]
      exact ⟨rfl, closed_quote "linq_result_column"⟩
  | keepCount =>
      refine whole_call rfl ?_
      simp only [List.mem_singleton, forall_eq]
      exact ⟨rfl, closed_columns "linq_result_column"⟩

end Stage

end TypedFlux

------------------------------------------------------------
-- Plans
------------------------------------------------------------

namespace TypedFlux

/- A pipeline with its variables by their positions. -/
structure Plan where
  bucket : Nat
  start : Nat
  stop? : Option Nat := none
  limit? : Option Nat := none
  offset? : Option Nat := none
  tail? : Option Nat := none
  conditions : List Condition := []
  sorts : List (String × Nat) := []
  reduction? : Option Reduction := none

namespace Plan

open Variables

/- The pipeline of a plan. -/
def pipeline (p : Plan) : Pipeline where
  bucket := nameAfter p.bucket
  start := nameAfter p.start
  stop? := p.stop?.map nameAfter
  limit? := p.limit?.map nameAfter
  offset? := p.offset?.map nameAfter
  tail? := p.tail?.map nameAfter
  filters := p.conditions.map (·.text)
  sorts := p.sorts.map fun s => ⟨s.1, nameAfter s.2⟩
  reduction? := p.reduction?

/- What a plan asks of the rows. -/
def outline (p : Plan) : Outline where
  filtered := !p.conditions.isEmpty
  sorted := p.sorts.map (·.1)
  limited := p.limit?.isSome || p.offset?.isSome
  tailed := p.tail?.isSome
  counted := p.reduction?.isSome

/- The filter, if there is any condition. -/
def filterStages : List Condition → List Stage
  | [] => []
  | conditions => [.filter conditions]

/- The limit, if rows are counted from the front. -/
def limitStages : Option Nat → Option Nat → List Stage
  | none, none => []
  | count?, offset? => [.limit count? offset?]

/- The three stages of a count. -/
def countStages : Option Reduction → List Stage
  | none => []
  | some .count => [.runningCount, .lastRow, .keepCount]

/- The stages of a plan. -/
def stages (p : Plan) : List Stage :=
  [.source p.bucket, .range p.start p.stop?, .pivot]
    ++ filterStages p.conditions
    ++ p.sorts.map (fun s => .sort s.1 s.2)
    ++ limitStages p.limit? p.offset?
    ++ (p.tail?.map .tail).toList
    ++ countStages p.reduction?

/- The stages of a plan do what it asks. -/
theorem kind_stages
    (p : Plan) :
    p.stages.map Stage.kind = p.outline.kinds := by
  have hFilter : (filterStages p.conditions).map Stage.kind =
      if p.outline.filtered then [.filter] else [] := by
    cases hConditions : p.conditions with
    | nil => simp [outline, hConditions, filterStages]
    | cons c cs =>
        simp [outline, hConditions, filterStages, Stage.kind]
  have hLimit :
      (limitStages p.limit? p.offset?).map Stage.kind =
        if p.outline.limited then [.limit] else [] := by
    cases hLimit : p.limit? <;> cases hOffset : p.offset? <;>
      simp [outline, hLimit, hOffset, limitStages, Stage.kind]
  have hTail : (p.tail?.map Stage.tail).toList.map Stage.kind =
      if p.outline.tailed then [.tail] else [] := by
    cases hTail : p.tail? <;>
      simp [outline, hTail, Stage.kind]
  have hCount : (countStages p.reduction?).map Stage.kind =
      if p.outline.counted then
        [.runningCount, .lastRow, .keepCount]
      else [] := by
    rcases hReduction : p.reduction? with _ | ⟨⟨⟩⟩ <;>
      simp [outline, hReduction, countStages, Stage.kind]
  have hSort : (p.sorts.map fun s =>
      Stage.sort s.1 s.2).map Stage.kind =
        p.outline.sorted.map .sort := by
    simp [outline, Stage.kind]
  simp only [stages, Outline.kinds, List.map_append, hFilter,
    hLimit, hTail, hCount, hSort]
  rfl

------------------------------------------------------------
-- Stages of a Pipeline
------------------------------------------------------------

/- The stages of a plan are those of the pipeline. -/
theorem filterStages_eq
    (conditions : List Condition) :
    Pipeline.filterStages (conditions.map (·.text)) =
      (filterStages conditions).map Stage.text := by
  cases conditions with
  | nil => rfl
  | cons c cs =>
      -- for any text, so that the joined one stays closed
      have hText : ∀ s : String,
          "filter(fn: (r) => " ++ s ++ ")" =
            Stage.call "filter" [("fn", "(r) => " ++ s)] := by
        intro s
        apply String.toList_injective
        simp [Stage.call]
      exact congrArg (fun s => [s]) (hText _)

theorem sortStage_eq
    (column : String)
    (descending : Nat) :
    Pipeline.sortStage ⟨column, nameAfter descending⟩ =
      (Stage.sort column descending).text := by
  have hText : ∀ s t : String,
      "sort(columns: [" ++ s ++ "], desc: " ++ t ++ ")" =
        Stage.call "sort"
          [("columns", "[" ++ s ++ "]"), ("desc", t)] := by
    intro s t
    apply String.toList_injective
    simp [Stage.call, String.intercalate_cons_cons]
  exact hText _ _

theorem limitStages_eq
    (limit? offset? : Option Nat) :
    Pipeline.limitStages (limit?.map nameAfter)
        (offset?.map nameAfter) =
      (limitStages limit? offset?).map Stage.text := by
  cases limit? with
  | none =>
      cases offset? with
      | none => rfl
      | some n => rfl
  | some n =>
      cases offset? with
      | none => rfl
      | some m => rfl

theorem countStages_eq
    (reduction? : Option Reduction) :
    Pipeline.reductionStages reduction? =
      (countStages reduction?).map Stage.text := by
  rcases reduction? with _ | ⟨⟨⟩⟩
  · rfl
  · rfl

/- The pipeline of a plan has the stages of the plan. -/
theorem stages_pipeline
    (p : Plan) :
    p.pipeline.stages = p.stages.map Stage.text := by
  have hRange : Pipeline.stage "range"
      (Pipeline.argument? "start" (some (nameAfter p.start))
        ++ Pipeline.argument? "stop" (p.stop?.map nameAfter)) =
        (Stage.range p.start p.stop?).text := by
    cases p.stop? <;> rfl
  have hTail : Pipeline.tailStages (p.tail?.map nameAfter) =
      (p.tail?.map Stage.tail).toList.map Stage.text := by
    cases p.tail? <;> rfl
  simp only [Pipeline.stages, pipeline, stages, hRange, hTail,
    filterStages_eq, limitStages_eq, countStages_eq,
    List.map_append, List.map_map, Function.comp_def,
    sortStage_eq]
  rfl

/- The stages of a plan are found again in its text. -/
theorem stages_text
    (p : Plan) :
    Scan.stages p.pipeline.text = p.stages.map Stage.text := by
  unfold Pipeline.text
  rw [stages_pipeline]
  have hWhole : ∀ s ∈ p.stages.map Stage.text,
      Scan.Whole s.toList := by
    intro s hMem
    rcases List.mem_map.mp hMem with ⟨stage, _, rfl⟩
    exact stage.whole_text
  exact Scan.stages_join hWhole

end Plan

end TypedFlux
