import TypedFlux.Proofs.Draft.Selection
import TypedFlux.Proofs.Flux.Lines

/-
  Scripts, read back from their text.

  The text of a script has a line for every import and every
  option, an empty one and the pipeline.  All of it is read
  back, so two queries with the same text have the same options
  and the same pipeline.

  Key definitions include:
    * `Script.Content`
    * `Script.decode`

  Key theorems include:
    * `Draft.oneLine_query`
    * `Draft.lines_text`
    * `Draft.decode_text`
    * `Draft.text_eq_iff`
-/

------------------------------------------------------------
-- Contents
------------------------------------------------------------

namespace TypedFlux

/- The package that a line imports. -/
def Flux.package? (line : String) : Option String :=
  let package : Reader String := do
    Lexeme.word "import "
    Lexeme.stringLiteral
  match package line.toList with
  | .ok found [] => some found
  | _ => none

namespace Script

/- What the text of a script says. -/
structure Content where
  imports : List String
  options : List (String × Literal)
  query : String

/- Read all but the last two lines, and the last. -/
def decode (text : String) : Content where
  imports :=
    (Text.lines text).dropLast.dropLast.filterMap Flux.package?
  options :=
    (Text.lines text).dropLast.dropLast.filterMap Flux.option?
  query := (Text.lines text).getLast?.getD ""

end Script

/- What a draft says, with signed numbers wherever they fit. -/
def Draft.content (d : Draft) : Script.Content where
  imports := d.script.imports
  options := d.scope.options.map fun v => (v.name, v.literal.normal)
  query := d.script.query

end TypedFlux

------------------------------------------------------------
-- Pipelines Are One Line
------------------------------------------------------------

namespace TypedFlux

open Text

theorem Part.oneLine_accessor
    (column : String) :
    OneLine (accessor column) := by
  have hOpening : OneLine "r[" := by decide
  have hClosing : OneLine "]" := by decide
  exact (hOpening.append (Flux.oneLine_quote column)).append
    hClosing

theorem Part.oneLine_operation
    {left right : String}
    (op : BinaryOp)
    (hLeft : OneLine left)
    (hRight : OneLine right) :
    OneLine (operation left (op.token?.getD "") right) := by
  have hOpening : OneLine "(" := by decide
  have hClosing : OneLine ")" := by decide
  have hBlank : OneLine " " := by decide
  have hToken : OneLine (op.token?.getD "") := by
    cases op <;> decide
  exact ((((((hOpening.append hLeft).append hBlank).append
    hToken).append hBlank).append hRight)).append hClosing

namespace Expr

variable {resolver : Resolver}

/- No expression is written over more than one line. -/
theorem oneLine_fluxAll
    {es : List Expr}
    (hEach : ∀ e ∈ es, ∀ n, OneLine (e.flux resolver n))
    (n : Nat) :
    ∀ s ∈ fluxAll resolver n es, OneLine s := by
  induction es generalizing n with
  | nil =>
      rw [fluxAll]
      exact fun _ hMem => absurd hMem List.not_mem_nil
  | cons e es ih =>
      rw [List.forall_mem_cons] at hEach
      rw [fluxAll, List.forall_mem_cons]
      exact ⟨hEach.1 n, ih hEach.2 _⟩

/- What can be expressed is expressed in one line. -/
theorem Expressible.oneLine_flux
    {e : Expr}
    (hExpressible : e.Expressible)
    (n : Nat) :
    OneLine (e.flux resolver n) := by
  induction hExpressible generalizing n with
  | constant value =>
      rw [flux]
      exact Variables.oneLine_nameAfter n
  | member name | index name key =>
      rw [flux]
      exact Part.oneLine_accessor _
  | convert _ ih =>
      rw [flux]
      exact ih n
  | @binary op _ _ _ _ _ ihLeft ihRight =>
      rw [flux]
      exact Part.oneLine_operation op (ihLeft n) (ihRight _)
  | @call receiver method args function hMethod hLength _ _
      ihReceiver ihArgs =>
      have hFunction := function?_eq_some.mpr ⟨hMethod, hLength⟩
      have hName : OneLine function.fluxName := by
        cases function <;> decide
      have hParameters : ∀ s ∈ function.parameters,
          OneLine s := by
        cases function <;> decide
      have hTexts : ∀ s ∈ receiver.flux resolver n
          :: fluxAll resolver
            (n + (receiver.constants resolver false).length)
            args, OneLine s := by
        rw [List.forall_mem_cons]
        exact ⟨ihReceiver n, oneLine_fluxAll ihArgs _⟩
      have hCall := Stage.oneLine_call hName
        fun a (hMem : a ∈ List.zip function.parameters _) =>
          ⟨hParameters _ (List.of_mem_zip hMem).1,
            hTexts _ (List.of_mem_zip hMem).2⟩
      rw [Stage.call, List.map_zip_eq_zipWith] at hCall
      rw [flux, hFunction]
      exact hCall

end Expr

namespace Draft

variable {bucket : String}
variable {resolver : Resolver}
variable {q : Query}
variable {d : Draft}

/- So the filter of a query is on one line. -/
theorem oneLine_filters
    (hDraft : Draft.ofQuery bucket resolver q = .ok d) :
    OneLine (" and ".intercalate d.pipeline.filters) := by
  rw [(ofQuery_parts hDraft).joined]
  apply oneLine_join (by decide)
  intro s hMem
  rcases List.mem_map.mp hMem with ⟨c, hConjunct, rfl⟩
  have hExpr := List.mem_map_of_mem (f := Conjunct.expr)
    (List.mem_filter.mp hConjunct).1
  rw [q.expr_conjuncts] at hExpr
  exact (ofQuery_conjuncts hDraft _ hExpr).1.oneLine_flux _

end Draft

/- A plan has one filter, with all its conditions. -/
theorem Plan.eq_conditions
    {plan : Plan}
    {conditions : List Condition}
    (hMem : Stage.filter conditions ∈ plan.stages) :
    conditions = plan.conditions := by
  unfold Plan.stages at hMem
  simp only [List.mem_append, List.mem_cons, List.mem_map] at hMem
  rcases hMem with ((((hSource | hFilter) | hSort) | hLimit)
    | hTail) | hCount
  · simp at hSource
  · unfold filterStages at hFilter
    split at hFilter
    · exact absurd hFilter List.not_mem_nil
    · exact Stage.filter.inj (List.mem_singleton.mp hFilter)
  · simp at hSort
  · unfold limitStages at hLimit
    split at hLimit
    · exact absurd hLimit List.not_mem_nil
    · cases List.mem_singleton.mp hLimit
  · simp at hTail
  · unfold countStages at hCount
    split at hCount
    · exact absurd hCount List.not_mem_nil
    · simp at hCount

namespace Draft

variable {bucket : String}
variable {resolver : Resolver}
variable {q : Query}
variable {d : Draft}

/- The pipeline of a query is one line. -/
theorem oneLine_query
    (hDraft : Draft.ofQuery bucket resolver q = .ok d) :
    OneLine d.script.query := by
  have hFilters := oneLine_filters hDraft
  rcases ofQuery_follows hDraft with ⟨plan, hPlan, _⟩
  change OneLine (" |> ".intercalate d.pipeline.stages)
  rw [hPlan] at hFilters ⊢
  rw [plan.stages_pipeline]
  apply oneLine_join (by decide)
  rw [List.forall_mem_map]
  intro stage hMem
  apply stage.oneLine_text
  rintro conditions rfl
  rw [plan.eq_conditions hMem]
  exact hFilters

end Draft

end TypedFlux

------------------------------------------------------------
-- Texts Read Back
------------------------------------------------------------

namespace TypedFlux

open Text

/- A script is its preamble, an empty line and its query. -/
theorem Script.text_eq
    {s : Script}
    (hPreamble : s.preamble ≠ []) :
    s.text = "\n".intercalate (s.preamble ++ ["", s.query]) := by
  unfold Script.text
  split
  next hNone => exact absurd hNone hPreamble
  next => rfl

namespace Draft

variable {bucket : String}
variable {resolver : Resolver}
variable {q : Query}
variable {d : Draft}

/- All options have names. -/
theorem isName_of_mem_options
    (hDraft : Draft.ofQuery bucket resolver q = .ok d) :
    ∀ v ∈ d.scope.options, Lexeme.isName v.name = true := by
  rw [ofQuery_numbers hDraft]
  intro v hMem
  rcases List.mem_mapIdx.mp hMem with ⟨i, _, rfl⟩
  exact Flux.isName_nameAfter i

/- The bucket is an option of every script. -/
theorem preamble_ne_nil
    (hDraft : Draft.ofQuery bucket resolver q = .ok d) :
    d.script.preamble ≠ [] := by
  have hStatements : d.script.statements ≠ [] := by
    change d.scope.options.map Variable.statement ≠ []
    rw [ofQuery_numbers hDraft]
    simp [Variables.ofConstants, Query.constants]
  unfold Script.preamble
  simp [hStatements]

/- Only a float might need more than one line. -/
theorem oneLine_statement
    {v : Variable}
    (hName : Lexeme.isName v.name = true)
    (hPlain : v.literal.hasFloat = false) :
    OneLine v.statement := by
  have hWord : OneLine "option " := by decide
  have hEquals : OneLine " = " := by decide
  have hVariable : OneLine v.name := by
    intro hMem
    have hChar := Lexeme.isNameChar_of_isName hName _ hMem
    exact absurd hChar (by decide)
  exact ((hWord.append hVariable).append hEquals).append
    (v.literal.oneLine_text hPlain)

/- There is only one package to import. -/
theorem imports_script
    (d : Draft) :
    d.script.imports = [] ∨ d.script.imports = ["strings"] := by
  change ite _ _ _ = _ ∨ ite _ _ _ = _
  cases d.scope.usesStrings with
  | false => exact .inl rfl
  | true => exact .inr rfl

/- The lines of a script, each of them one. -/
theorem oneLine_lines
    (hDraft : Draft.ofQuery bucket resolver q = .ok d)
    (hPlain : ∀ v ∈ d.scope.options,
      v.literal.hasFloat = false) :
    ∀ line ∈ d.script.preamble ++ ["", d.script.query],
      OneLine line := by
  have hImports : ∀ package ∈ d.script.imports,
      OneLine ("import \"" ++ package ++ "\"") := by
    rcases d.imports_script with hNone | hStrings
    · simp [hNone]
    · rw [hStrings]
      decide
  have hStatements : ∀ line ∈ d.script.statements,
      OneLine line := by
    change ∀ line ∈ d.scope.options.map Variable.statement, _
    rw [List.forall_mem_map]
    exact fun v hMem => oneLine_statement
      (isName_of_mem_options hDraft v hMem) (hPlain v hMem)
  unfold Script.preamble
  simp only [List.forall_mem_append, List.forall_mem_map,
    List.forall_mem_cons]
  exact ⟨⟨hImports, hStatements⟩, by decide,
    oneLine_query hDraft, by simp⟩

/- The lines of a script are those it was made of. -/
theorem lines_text
    (hDraft : Draft.ofQuery bucket resolver q = .ok d)
    (hPlain : ∀ v ∈ d.scope.options,
      v.literal.hasFloat = false) :
    lines d.script.text =
      d.script.preamble ++ ["", d.script.query] := by
  rw [Script.text_eq (preamble_ne_nil hDraft)]
  exact lines_join (oneLine_lines hDraft hPlain) (by simp)

/- Every statement is read back as its option. -/
theorem map_option?_statements
    (hDraft : Draft.ofQuery bucket resolver q = .ok d)
    (hPlain : ∀ v ∈ d.scope.options,
      v.literal.hasFloat = false) :
    d.script.statements.map Flux.option? =
      d.content.options.map some := by
  change (d.scope.options.map Variable.statement).map _ = _
  rw [content, List.map_map, List.map_map]
  apply List.map_congr_left
  intro v hMem
  exact Flux.option?_statement
    (isName_of_mem_options hDraft v hMem) (hPlain v hMem)

/- An option imports nothing. -/
theorem package?_statement
    (v : Variable) :
    Flux.package? v.statement = none := by
  have hMiss : (Lexeme.word "import ").Misses
      v.statement.toList := by
    rw [Flux.toList_statement]
    exact Lexeme.word_misses_of_head rfl
      ((Lexeme.avoids_cons _ _ _).mpr rfl)
  rcases hMiss.bind fun _ => Lexeme.stringLiteral with
    ⟨fault, hMiss⟩
  unfold Flux.package?
  simp only [hMiss]

/- An import declares nothing. -/
theorem option?_import
    (package : String) :
    Flux.option? ("import \"" ++ package ++ "\"") = none := by
  generalize hLine : "import \"" ++ package ++ "\"" = line
  have hMiss : (Lexeme.word "option ").Misses line.toList := by
    rw [← hLine, String.toList_append, String.toList_append,
      List.append_assoc]
    exact Lexeme.word_misses_of_head rfl
      ((Lexeme.avoids_cons _ _ _).mpr rfl)
  have hDeclaration : Flux.declaration.Misses line.toList :=
    hMiss.bind _
  rcases hDeclaration.bind fun x => do
      let l ← Flux.literal line.length
      return (x, l) with
    ⟨fault, hMiss⟩
  unfold Flux.option?
  simp only [hMiss]

theorem package?_strings :
    Flux.package? ("import \"" ++ "strings" ++ "\"") =
      some "strings" := by
  have hLine : ("import \"" ++ "strings" ++ "\"").toList =
      "import ".toList ++ ((Flux.quote "strings").toList ++ []) := by
    decide
  unfold Flux.package?
  rw [hLine]
  simp only [Reader.bind_of_ok (Lexeme.word_append _ _),
    Lexeme.stringLiteral_quote]

/- A script is read back from its text. -/
theorem decode_text
    (hDraft : Draft.ofQuery bucket resolver q = .ok d)
    (hPlain : ∀ v ∈ d.scope.options,
      v.literal.hasFloat = false) :
    Script.decode d.script.text = d.content := by
  have hLines := lines_text hDraft hPlain
  have hPreamble :
      (d.script.preamble ++ ["", d.script.query]).dropLast.dropLast =
        d.script.preamble := by
    simp
  have hImports : d.script.preamble.filterMap Flux.package? =
      d.script.imports := by
    have hNone : d.script.statements.filterMap Flux.package? =
        [] := by
      rw [List.filterMap_eq_nil_iff]
      change ∀ line ∈ d.scope.options.map Variable.statement, _
      rw [List.forall_mem_map]
      exact fun v _ => package?_statement v
    rw [Script.preamble, List.filterMap_append, hNone,
      List.append_nil]
    rcases d.imports_script with hImports | hImports
    · rw [hImports]
      rfl
    · rw [hImports, List.map_singleton,
        List.filterMap_cons_some package?_strings]
      rfl
  have hOptions : d.script.preamble.filterMap Flux.option? =
      d.content.options := by
    have hNone : (d.script.imports.map fun package =>
        "import \"" ++ package ++ "\"").filterMap Flux.option? =
          [] := by
      rw [List.filterMap_eq_nil_iff, List.forall_mem_map]
      exact fun package _ => option?_import package
    rw [Script.preamble, List.filterMap_append, hNone,
      List.nil_append]
    calc
      _ = (d.script.statements.map Flux.option?).filterMap id :=
        List.filterMap_map.symm
      _ = (d.content.options.map some).filterMap id := by
        rw [map_option?_statements hDraft hPlain]
      _ = d.content.options :=
        List.filterMap_map.trans List.filterMap_some
  unfold Script.decode
  rw [hLines, hPreamble, hImports, hOptions]
  simp [content]

/- What a draft says determines its text. -/
theorem text_of_content
    {d' : Draft}
    (hContent : d.content = d'.content) :
    d.script.text = d'.script.text := by
  have hStatements : ∀ d : Draft, d.script.statements =
      d.content.options.map fun option =>
        "option " ++ option.1 ++ " = " ++ option.2.text := by
    intro d
    change d.scope.options.map Variable.statement = _
    rw [content, List.map_map]
    apply List.map_congr_left
    intro v _
    simp only [Function.comp_apply, Literal.text_normal]
    rfl
  have hImports : d.script.imports = d'.script.imports :=
    congrArg Script.Content.imports hContent
  have hQuery : d.script.query = d'.script.query :=
    congrArg Script.Content.query hContent
  unfold Script.text Script.preamble
  rw [hStatements d, hStatements d', hContent, hImports, hQuery]

/-
  The text of a script has a line for every import and every
  option, an empty line and the pipeline, and none of them ends
  within.  Every option is read back from its line.  So two
  queries have the same text exactly if they have the same
  imports, the same literals under the same names and the same
  pipeline.
-/
theorem text_eq_iff
    (bucket bucket' : String)
    (resolver resolver' : Resolver)
    (q q' : Query)
    (d d' : Draft)
    (hDraft : Draft.ofQuery bucket resolver q = .ok d)
    (hDraft' : Draft.ofQuery bucket' resolver' q' = .ok d')
    (hPlain : ∀ v ∈ d.scope.options,
      v.literal.hasFloat = false)
    (hPlain' : ∀ v ∈ d'.scope.options,
      v.literal.hasFloat = false) :
    lines d.script.text =
        d.script.preamble ++ ["", d.script.query] ∧
      (lines d.script.text).length =
        d.script.imports.length + d.script.statements.length + 2 ∧
      (∀ line ∈ d.script.preamble ++ ["", d.script.query],
        OneLine line) ∧
      d.script.statements.map Flux.option? =
        d.scope.options.map (fun v =>
          some (v.name, v.literal.normal)) ∧
      Script.decode d.script.text = d.content ∧
      (d.script.text = d'.script.text ↔
        d.content = d'.content) := by
  have hLines := lines_text hDraft hPlain
  have hDecode := decode_text hDraft hPlain
  refine ⟨hLines, ?_, oneLine_lines hDraft hPlain, ?_, hDecode,
    ?_⟩
  · rw [hLines]
    simp [Script.preamble, Nat.add_assoc]
  · rw [map_option?_statements hDraft hPlain, content,
      List.map_map]
    rfl
  · constructor
    · intro hText
      rw [← hDecode, hText]
      exact decode_text hDraft' hPlain'
    · exact text_of_content

/- A string that would end its literal and its line. -/
def quotingQuery (level : Value) : Query where
  entity := "device"
  body := [.filter (.binary .andAlso
    (.binary .equal (.member "level") (.constant level))
    (.binary .notEqual
      (.call (.member "site") "ToLower" [])
      (.constant (.array [
        .string "\n\", ]",
        .array [.uint 9223372036854775808, .array []],
        .time (.ofInstant ⟨59, 1500000000, by decide⟩),
        .span (.ofMicros (-5))]))))]
  operators := [.skip (.constant (.uint 3))]

/-
  Line breaks in names and texts are no lines, and numbers of
  two types are one text.
-/
theorem text_eq_iff_quotingQuery :
    ∃ d d',
      Draft.ofQuery "b\n" deviceResolver
        (quotingQuery (.int 7)) = .ok d ∧
      Draft.ofQuery "b\n" deviceResolver
        (quotingQuery (.uint 7)) = .ok d' ∧
      (lines d.script.text).length = 8 ∧
      Script.decode d.script.text = d.content ∧
      d.script.text = d'.script.text := by
  rcases (⟨_, rfl⟩ : ∃ d, Draft.ofQuery "b\n" deviceResolver
    (quotingQuery (.int 7)) = .ok d) with ⟨d, hDraft⟩
  rcases (⟨_, rfl⟩ : ∃ d, Draft.ofQuery "b\n" deviceResolver
    (quotingQuery (.uint 7)) = .ok d) with ⟨d', hDraft'⟩
  have hPlain : ∀ v ∈ d.scope.options,
      v.literal.hasFloat = false := by
    rw [ofQuery_numbers hDraft]
    decide
  have hPlain' : ∀ v ∈ d'.scope.options,
      v.literal.hasFloat = false := by
    rw [ofQuery_numbers hDraft']
    decide
  rcases text_eq_iff "b\n" "b\n" deviceResolver deviceResolver
      (quotingQuery (.int 7)) (quotingQuery (.uint 7)) d d' hDraft
      hDraft' hPlain hPlain' with
    ⟨_, hLength, _, _, hDecode, hSame⟩
  cases hDraft
  cases hDraft'
  exact ⟨_, _, rfl, rfl, hLength, hDecode, hSame.mpr rfl⟩

end Draft

end TypedFlux
