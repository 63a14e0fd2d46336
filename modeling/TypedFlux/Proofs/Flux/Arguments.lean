import TypedFlux.Proofs.Flux.Literals
import TypedFlux.Proofs.Flux.Stages

/-
  The arguments of stages, read back from their text.

  A stage that selects rows, keeps some of them or sorts them is
  read from its text alone.  No other stage is taken for one of
  these.

  Key definitions include:
    * `Flux.Count`, `Flux.Cut`, `Flux.Bounds`
    * `Flux.cut?`, `Flux.sort?`, `Flux.range?`, `Flux.filter?`
    * `Stage.cut?`, `Stage.sort?`, `Stage.range?`, `Stage.filter?`

  Key theorems include:
    * `Flux.cut?_text`, `Flux.sort?_text`
    * `Flux.range?_text`, `Flux.filter?_text`
-/

------------------------------------------------------------
-- Readers
------------------------------------------------------------

namespace TypedFlux

namespace Flux

open Reader Lexeme

variable {α : Type}

/- A number of rows: an option or a numeral. -/
inductive Count where
  | option (name : String)
  | number (n : Nat)

/- A stage that keeps some of the rows. -/
inductive Cut where
  | limit (count : Count) (offset? : Option Count)
  | tail (count : Count)

/- The names of the bounds of a range. -/
structure Bounds where
  start : String
  stop? : Option String

/- A number of rows. -/
def count : Reader Count :=
  (do let x ← name; return .option x)
    <|> (do let n ← natural; return .number n)

/- A limit with its arguments. -/
def limit : Reader Cut := do
  word "limit(n: "
  let n ← count
  let offset? ← Reader.optional (do word ", offset: "; count)
  symbol ')'
  return .limit n offset?

/- A tail with its argument. -/
def tail : Reader Cut := do
  word "tail(n: "
  let n ← count
  symbol ')'
  return .tail n

/- A sort with its arguments. -/
def sort : Reader SortColumn := do
  word "sort(columns: ["
  let column ← stringLiteral
  word "], desc: "
  let descending ← name
  symbol ')'
  return ⟨column, descending⟩

/- A range with its arguments. -/
def range : Reader Bounds := do
  word "range(start: "
  let start ← name
  let stop? ← Reader.optional (do word ", stop: "; name)
  symbol ')'
  return ⟨start, stop?⟩

/- What a reader finds in a whole text. -/
def whole?
    (p : Reader α)
    (text : String) : Option α :=
  match p text.toList with
  | .ok found [] => some found
  | _ => none

/- What a stage keeps, if it is a limit or a tail. -/
def cut? (stage : String) : Option Cut :=
  whole? (limit <|> tail) stage

/- What a stage sorts by, if it is a sort. -/
def sort? (stage : String) : Option SortColumn :=
  whole? sort stage

/- A text is read if nothing of it remains. -/
theorem whole?_of_ok
    {p : Reader α}
    {text : String}
    {found : α}
    (hRead : p text.toList = .ok found []) :
    whole? p text = some found := by
  unfold whole?
  rw [hRead]

theorem whole?_of_misses
    {p : Reader α}
    {text : String}
    (hMiss : p.Misses text.toList) :
    whole? p text = none := by
  rcases hMiss with ⟨fault, hMiss⟩
  unfold whole?
  rw [hMiss]

end Flux

end TypedFlux

------------------------------------------------------------
-- Stages Read Back
------------------------------------------------------------

namespace TypedFlux

namespace Stage

open Lexeme Variables

/- The limit of a stage that only leaves rows out. -/
def mostRows : Nat :=
  9223372036854775807

/- What a stage keeps. -/
def cut? : Stage → Option Flux.Cut
  | .limit count? offset? =>
      some (.limit
        ((count?.map fun n => .option (nameAfter n)).getD
          (.number mostRows))
        (offset?.map fun n => .option (nameAfter n)))
  | .tail count => some (.tail (.option (nameAfter count)))
  | _ => none

/- What a stage sorts by. -/
def sort? : Stage → Option SortColumn
  | .sort column descending =>
      some ⟨column, nameAfter descending⟩
  | _ => none

/- A call begins with the name of its function. -/
theorem avoids_call
    {p : Char → Bool}
    {function : String}
    {arguments : List (String × String)}
    {first : Char}
    {others : List Char}
    (hFunction : function.toList = first :: others)
    (hFirst : p first = false) :
    Avoids p (call function arguments).toList := by
  unfold call
  simp only [String.toList_append, hFunction, List.cons_append,
    avoids_cons, hFirst]

end Stage

namespace Flux

open Reader Lexeme Variables

variable {s rest : List Char}

/- A count is the name of an option or a number. -/
theorem count_nameAfter
    (n : Nat)
    (hRest : Avoids isNameChar rest) :
    count ((nameAfter n).toList ++ rest) =
      .ok (.option (nameAfter n)) rest := by
  apply orElse_of_ok
  rw [bind_of_ok (name_append (isName_nameAfter n) hRest)]
  rfl

theorem count_mostRows
    (hRest : Avoids Char.isDigit rest) :
    count ("9223372036854775807".toList ++ rest) =
      .ok (.number Stage.mostRows) rest := by
  have hName : name.Misses
      ("9223372036854775807".toList ++ rest) :=
    name_misses ((avoids_cons _ _ _).mpr rfl)
  have hText : "9223372036854775807" =
      Numeral.padded 1 Stage.mostRows := by
    decide
  unfold count
  rw [orElse_of_misses (hName.bind _), hText,
    bind_of_ok (natural_padded 1 Stage.mostRows hRest)]
  rfl

/- The number of a limit, whether it is an option or not. -/
theorem count_limit
    (count? : Option Nat)
    (hRest : Avoids isNameChar rest) :
    count (((count?.map nameAfter).getD
        "9223372036854775807").toList ++ rest) =
      .ok ((count?.map fun n => .option (nameAfter n)).getD
        (.number Stage.mostRows)) rest := by
  cases count? with
  | none => exact count_mostRows (avoids_isDigit hRest)
  | some n => exact count_nameAfter n hRest

/- The readers give back what the stages were written from. -/
theorem limit_text
    (count? offset? : Option Nat) :
    limit (Stage.limit count? offset?).text.toList =
      .ok (.limit
        ((count?.map fun n => .option (nameAfter n)).getD
          (.number Stage.mostRows))
        (offset?.map fun n => .option (nameAfter n))) [] := by
  have hEnd : Avoids isNameChar [')'] :=
    (avoids_cons _ _ _).mpr rfl
  unfold limit
  cases offset? with
  | none =>
      have hChars : (Stage.limit count? none).text.toList =
          "limit(n: ".toList
            ++ (((count?.map nameAfter).getD
              "9223372036854775807").toList ++ [')']) := by
        unfold Stage.text
        simp [Stage.call, Stage.optional]
      have hMiss : (word ", offset: ").Misses [')'] :=
        word_misses_of_head rfl ((avoids_cons _ _ _).mpr rfl)
      rw [hChars, bind_of_ok (word_append _ _),
        bind_of_ok (count_limit count? hEnd),
        bind_of_ok (optional_of_misses (hMiss.bind _)),
        bind_of_ok (symbol_cons _ _)]
      rfl
  | some m =>
      have hChars : (Stage.limit count? (some m)).text.toList =
          "limit(n: ".toList
            ++ (((count?.map nameAfter).getD
              "9223372036854775807").toList
            ++ (", offset: ".toList
            ++ ((nameAfter m).toList ++ [')']))) := by
        unfold Stage.text
        simp [Stage.call, Stage.optional,
          String.intercalate_cons_cons]
      have hComma : Avoids isNameChar (", offset: ".toList
          ++ ((nameAfter m).toList ++ [')'])) :=
        (avoids_cons _ _ _).mpr rfl
      have hOffset : (do word ", offset: "; count)
          (", offset: ".toList ++ ((nameAfter m).toList ++ [')']))
            = .ok (.option (nameAfter m)) [')'] :=
        (bind_of_ok (word_append _ _)).trans
          (count_nameAfter m hEnd)
      rw [hChars, bind_of_ok (word_append _ _),
        bind_of_ok (count_limit count? hComma),
        bind_of_ok (optional_of_ok hOffset),
        bind_of_ok (symbol_cons _ _)]
      rfl

theorem tail_text
    (n : Nat) :
    tail (Stage.tail n).text.toList =
      .ok (.tail (.option (nameAfter n))) [] := by
  have hChars : (Stage.tail n).text.toList =
      "tail(n: ".toList ++ ((nameAfter n).toList ++ [')']) := by
    unfold Stage.text
    simp [Stage.call]
  unfold tail
  rw [hChars, bind_of_ok (word_append _ _),
    bind_of_ok (count_nameAfter n ((avoids_cons _ _ _).mpr rfl)),
    bind_of_ok (symbol_cons _ _)]
  rfl

theorem sort_text
    (column : String)
    (n : Nat) :
    sort (Stage.sort column n).text.toList =
      .ok ⟨column, nameAfter n⟩ [] := by
  have hChars : (Stage.sort column n).text.toList =
      "sort(columns: [".toList ++ ((quote column).toList
        ++ ("], desc: ".toList
        ++ ((nameAfter n).toList ++ [')']))) := by
    unfold Stage.text
    simp [Stage.call, String.intercalate_cons_cons]
  unfold sort
  rw [hChars, bind_of_ok (word_append _ _),
    bind_of_ok (stringLiteral_quote column _),
    bind_of_ok (word_append _ _),
    bind_of_ok (name_append (isName_nameAfter n)
      ((avoids_cons _ _ _).mpr rfl)),
    bind_of_ok (symbol_cons _ _)]
  rfl

/- By its first letter a stage is told from the cuts. -/
theorem cut?_eq_none
    {stage : String}
    (hLimit : Avoids (· == 'l') stage.toList)
    (hTail : Avoids (· == 't') stage.toList) :
    cut? stage = none := by
  have hLimit : (word "limit(n: ").Misses stage.toList :=
    word_misses_of_head rfl hLimit
  have hTail : (word "tail(n: ").Misses stage.toList :=
    word_misses_of_head rfl hTail
  exact whole?_of_misses ((hLimit.bind _).orElse (hTail.bind _))

/- A stage that keeps rows is read back, and no other. -/
theorem cut?_text
    (stage : Stage) :
    cut? stage.text = stage.cut? := by
  cases stage with
  | limit count? offset? =>
      exact whole?_of_ok (orElse_of_ok (limit_text count? offset?))
  | tail n =>
      have hWord : (word "limit(n: ").Misses
          (Stage.tail n).text.toList :=
        word_misses_of_head rfl (Stage.avoids_call rfl rfl)
      have hLimit : limit.Misses (Stage.tail n).text.toList :=
        hWord.bind _
      exact whole?_of_ok
        ((orElse_of_misses hLimit).trans (tail_text n))
  | lastRow =>
      have hLimit : (word "limit(n: ").Misses
          Stage.lastRow.text.toList :=
        word_misses (by decide)
      have hTail : (word "tail(n: ").Misses
          Stage.lastRow.text.toList :=
        word_misses (by decide)
      exact whole?_of_misses
        ((hLimit.bind _).orElse (hTail.bind _))
  | source | range | filter | sort | runningCount | keepCount =>
      exact cut?_eq_none (Stage.avoids_call rfl rfl)
        (Stage.avoids_call rfl rfl)
  | pivot =>
      exact cut?_eq_none ((avoids_cons _ _ _).mpr rfl)
        ((avoids_cons _ _ _).mpr rfl)

/- By its first letter a stage is told from the sorts. -/
theorem sort?_eq_none
    {stage : String}
    (hSort : Avoids (· == 's') stage.toList) :
    sort? stage = none := by
  have hSort : (word "sort(columns: [").Misses stage.toList :=
    word_misses_of_head rfl hSort
  exact whole?_of_misses (hSort.bind _)

/- A sort is read back, and no other stage. -/
theorem sort?_text
    (stage : Stage) :
    sort? stage.text = stage.sort? := by
  cases stage with
  | sort column n => exact whole?_of_ok (sort_text column n)
  | runningCount =>
      have hSort : (word "sort(columns: [").Misses
          Stage.runningCount.text.toList :=
        word_misses (by decide)
      exact whole?_of_misses (hSort.bind _)
  | source | range | filter | limit | tail | lastRow
  | keepCount =>
      exact sort?_eq_none (Stage.avoids_call rfl rfl)
  | pivot => exact sort?_eq_none ((avoids_cons _ _ _).mpr rfl)

end Flux

end TypedFlux

------------------------------------------------------------
-- Readers of Plans
------------------------------------------------------------

namespace TypedFlux

namespace Plan

variable {β : Type}
variable {f : Stage → Option β}

/-
  A reader that passes over a kind of stages finds nothing among
  the stages of that kind.
-/
theorem filterMap_filterStages
    (hNone : ∀ conditions, f (.filter conditions) = none)
    (conditions : List Condition) :
    (filterStages conditions).filterMap f = [] := by
  cases conditions with
  | nil => rfl
  | cons condition conditions =>
      exact List.filterMap_cons_none (hNone _)

theorem filterMap_sorts
    (hNone : ∀ column n, f (.sort column n) = none)
    (sorts : List (String × Nat)) :
    (sorts.map fun s => Stage.sort s.1 s.2).filterMap f = [] := by
  simp [List.filterMap_map, hNone]

theorem filterMap_limitStages
    (hNone : ∀ count? offset?, f (.limit count? offset?) = none)
    (count? offset? : Option Nat) :
    (limitStages count? offset?).filterMap f = [] := by
  cases count? with
  | some n => exact List.filterMap_cons_none (hNone _ _)
  | none =>
      cases offset? with
      | some m => exact List.filterMap_cons_none (hNone _ _)
      | none => rfl

theorem filterMap_tail
    (hNone : ∀ n, f (.tail n) = none)
    (tail? : Option Nat) :
    (tail?.map Stage.tail).toList.filterMap f = [] := by
  cases tail? with
  | none => rfl
  | some n => exact List.filterMap_cons_none (hNone n)

theorem filterMap_countStages
    (hRunning : f .runningCount = none)
    (hLast : f .lastRow = none)
    (hKeep : f .keepCount = none)
    (reduction? : Option Reduction) :
    (countStages reduction?).filterMap f = [] := by
  rcases reduction? with _ | ⟨⟨⟩⟩
  · rfl
  · simp [countStages, hRunning, hLast, hKeep]

end Plan

end TypedFlux
