import TypedFlux.Proofs.Draft.Acceptance
import TypedFlux.Proofs.Draft.Routing
import TypedFlux.Proofs.Flux.Mentions

/-
  What holds of every draft.

  A draft takes up queries one after the other, and any of them
  may fail midway.  Whatever was taken up of it, the variables,
  the range and the pipeline still belong together.

  Key definitions include:
    * `Scope.Extends`
    * `Variables.Declares`, `Variables.DeclaresLater`
    * `Draft.Sound`

  Key theorems include:
    * `Expr.Expressible.names_flux`
    * `Expr.Fails.extends`
    * `Draft.Routes.sound`
    * `Drafting.clause_sound`, `Drafting.operator_sound`
    * `Draft.sound_addAll`
-/

------------------------------------------------------------
-- Names in Conditions
------------------------------------------------------------

namespace TypedFlux

/- The names of `k` variables behind `n` others. -/
def Variables.namesFrom (n k : Nat) : List String :=
  (List.range' n k).map nameAfter

/- Names in a row go on where others end. -/
theorem Variables.namesFrom_append
    (n k l : Nat) :
    namesFrom n k ++ namesFrom (n + k) l =
      namesFrom n (k + l) := by
  unfold namesFrom
  rw [← List.map_append, List.range'_append_1]

namespace StringFunction

open Scan

/- The name of a function is no variable. -/
theorem names_fluxName
    (function : StringFunction) :
    Names function.fluxName.toList [] := by
  cases function <;> exact names_plain (by decide) (by decide)

/- The names of parameters tell nothing. -/
theorem piecewise_parameters
    {R : List Char → List String → Prop}
    (hR : Piecewise R)
    (function : StringFunction) :
    ∀ s ∈ function.parameters, R s.toList [] := by
  have hWords : ∀ s ∈ function.parameters,
      s.toList.all isWord = true ∧ isName s.toList = false := by
    cases function <;> decide
  intro s hMem
  exact hR.word (hWords s hMem).1 (hWords s hMem).2

end StringFunction

namespace Expr

open Scan Variables

variable {resolver : Resolver}

/- Marks do not change the number of constants. -/
theorem length_constants
    (e : Expr)
    (isTag : Bool) :
    (e.constants resolver isTag).length =
      (e.constants resolver false).length := by
  cases hConstant : Drafting.constant? e with
  | none =>
      rw [constants_of_constant?_none isTag hConstant]
  | some value =>
      rw [constants_of_constant? isTag hConstant,
        constants_of_constant? false hConstant]
      rfl

theorem length_fluxAll
    (n : Nat)
    (es : List Expr) :
    (fluxAll resolver n es).length = es.length := by
  induction es generalizing n with
  | nil => simp [fluxAll]
  | cons e es ih => simp [fluxAll, ih]

/-
  The texts of a list name the variables of its constants, one
  after the other.
-/
theorem names_fluxAll
    {es : List Expr}
    (hEach : ∀ e ∈ es, ∀ n, Names (e.flux resolver n).toList
      (namesFrom n (e.constants resolver false).length))
    (n : Nat) :
    (∀ s ∈ fluxAll resolver n es, Closed s.toList) ∧
      (fluxAll resolver n es).flatMap
          (fun s => names s.toList) =
        namesFrom n (allConstants resolver es).length := by
  induction es generalizing n with
  | nil => simp [fluxAll, allConstants, namesFrom]
  | cons e es ih =>
      rw [List.forall_mem_cons] at hEach
      have hFirst := hEach.1 n
      rcases ih hEach.2
        (n + (e.constants resolver false).length) with
        ⟨hClosed, hNames⟩
      rw [fluxAll, allConstants, List.forall_mem_cons,
        List.flatMap_cons, hFirst.names, hNames,
        List.length_append, namesFrom_append]
      exact ⟨⟨hFirst.closed, hClosed⟩, rfl⟩

/- A condition names its own constants, each of them once. -/
theorem Expressible.names_flux
    {e : Expr}
    (hExpressible : e.Expressible)
    (n : Nat) :
    Names (e.flux resolver n).toList
      (namesFrom n (e.constants resolver false).length) := by
  induction hExpressible generalizing n with
  | constant value =>
      rw [flux, constants]
      exact names_nameAfter n
  | member name =>
      rw [flux, constants]
      exact names_piecewise.accessor _
  | index name key =>
      rw [flux, constants]
      exact names_piecewise.accessor _
  | convert _ ih =>
      rw [flux, constants]
      exact ih n
  | @binary op left right _ _ _ ihLeft ihRight =>
      have hAll := names_piecewise.operation (ihLeft n) op
        (ihRight (n + (left.constants resolver false).length))
      rw [namesFrom_append] at hAll
      rw [flux, constants, List.length_append,
        length_constants left (op.isComparison && _),
        length_constants right (op.isComparison && _)]
      exact hAll
  | @call receiver method args function hMethod hLength _ _
      ihReceiver ihArgs =>
      have hFunction :=
        function?_eq_some.mpr ⟨hMethod, hLength⟩
      have hReceiver := ihReceiver n
      rcases names_fluxAll ihArgs
        (n + (receiver.constants resolver false).length) with
        ⟨hClosed, hNames⟩
      have hTexts : ∀ s ∈ flux resolver n receiver
          :: fluxAll resolver
            (n + (receiver.constants resolver false).length)
            args, Names s.toList (names s.toList) := by
        rw [List.forall_mem_cons]
        exact ⟨⟨hReceiver.closed, rfl⟩,
          fun s hMem => ⟨hClosed s hMem, rfl⟩⟩
      have hArguments := names_piecewise.parameters
        (by rw [hLength, List.length_cons, length_fluxAll])
        (function.piecewise_parameters names_piecewise) hTexts
      rw [List.flatMap_cons, hReceiver.names, hNames,
        namesFrom_append] at hArguments
      have hCall := function.names_fluxName.call hArguments
      rw [constants, List.length_append]
      simpa [flux, hFunction] using hCall

end Expr

namespace Conjunct

open Variables

variable {resolver : Resolver}
variable {es : List Expr}
variable {c : Conjunct}
variable {n : Nat}

/- A conjunct is one of the expressions it was made of. -/
theorem expr_mem
    (hMem : c ∈ ofExprs resolver n es) :
    c.expr ∈ es := by
  have hExpr := List.mem_map_of_mem (f := Conjunct.expr) hMem
  rw [expr_ofExprs] at hExpr
  exact hExpr

/- The constants of a conjunct end before those of the next. -/
theorem before_le
    (hMem : c ∈ ofExprs resolver n es) :
    c.before + (c.expr.constants resolver false).length ≤
      n + (Expr.allConstants resolver es).length := by
  induction es generalizing n with
  | nil => exact absurd hMem List.not_mem_nil
  | cons e es ih =>
      rw [Expr.allConstants, List.length_append]
      rcases List.mem_cons.mp hMem with rfl | hMem
      · change n + (e.constants resolver false).length ≤ _
        omega
      · have hLater := ih hMem
        omega

/- Conditions name only what was named by then. -/
theorem exists_of_mem_names
    (hExpressible : ∀ e ∈ es, e.Expressible)
    {x : String}
    (hMem : x ∈ Scan.names (" and ".intercalate
      (conditions resolver (ofExprs resolver n es))).toList) :
    ∃ k, k < n + (Expr.allConstants resolver es).length ∧
      x = nameAfter k := by
  have hTexts : ∀ c ∈ (ofExprs resolver n es).filter
      (fun c => !c.expr.isBound resolver),
        Scan.Names (c.text resolver).toList
          (namesFrom c.before
            (c.expr.constants resolver false).length) := by
    intro c hKept
    have hConjunct := (List.mem_filter.mp hKept).1
    exact (hExpressible _ (expr_mem hConjunct)).names_flux _
  have hJoin := Scan.names_piecewise.join
    Scan.names_piecewise.separates_and hTexts
  rw [conditions, hJoin.names, List.mem_flatMap] at hMem
  rcases hMem with ⟨c, hKept, hName⟩
  have hConjunct := (List.mem_filter.mp hKept).1
  rw [namesFrom, List.mem_map] at hName
  rcases hName with ⟨k, hRange, rfl⟩
  have hLast := before_le hConjunct
  rw [List.mem_range'_1] at hRange
  exact ⟨k, by omega, rfl⟩

end Conjunct

end TypedFlux

------------------------------------------------------------
-- Scopes Grow
------------------------------------------------------------

namespace TypedFlux

namespace Scope

variable {s t u : Scope}
variable {cs : List Constant}

/- More constants are named, and none is changed. -/
def Extends (s t : Scope) : Prop :=
  ∀ cs, s.Numbers cs → ∃ ds, t.Numbers (cs ++ ds)

theorem extends_refl
    (s : Scope) :
    s.Extends s := by
  intro cs hNumbers
  exact ⟨[], by rw [List.append_nil]; exact hNumbers⟩

/- What was added is followed by what is added later. -/
theorem Extends.trans
    (hFirst : s.Extends t)
    (hSecond : t.Extends u) :
    s.Extends u := by
  intro cs hNumbers
  rcases hFirst cs hNumbers with ⟨ds, hMiddle⟩
  rcases hSecond _ hMiddle with ⟨es, hEnd⟩
  exact ⟨ds ++ es, by rw [← List.append_assoc]; exact hEnd⟩

/- A new name comes behind all others. -/
theorem extends_bind
    (s : Scope)
    (value : Value) :
    s.Extends (s.bind value) :=
  fun _ hNumbers => ⟨_, hNumbers.bind value⟩

/-
  A scope that extends another keeps its variables, as they
  are and where they are.
-/
theorem Extends.options_prefix
    (hNumbers : s.Numbers cs)
    (hExtends : s.Extends t) :
    s.options <+: t.options := by
  rcases hExtends cs hNumbers with ⟨ds, hMore⟩
  rw [hNumbers, hMore]
  unfold Variables.ofConstants
  rw [List.mapIdx_append]
  exact List.prefix_append _ _

end Scope

namespace Expr

variable {resolver : Resolver}
variable {error : QueryError}
variable {s t u : Scope}

/- A walk only adds, and so does one that fails. -/
theorem Visits.extends
    {e : Expr}
    {p : Part}
    (hVisits : Visits resolver e s p u) :
    s.Extends u :=
  fun _ hNumbers => ⟨_, hVisits.numbers hNumbers⟩

/- The same of a list of expressions. -/
theorem VisitsAll.extends
    {es : List Expr}
    {ps : List Part}
    (hVisits : VisitsAll resolver es s ps u) :
    s.Extends u :=
  fun _ hNumbers => ⟨_, hVisits.numbers hNumbers⟩

/- A walk that fails names the constants up to its end. -/
theorem Fails.extends
    {e : Expr}
    (hFails : Fails resolver e s error t) :
    s.Extends t := by
  induction hFails with
  | refused s _ => exact Scope.extends_refl s
  | convert _ ih => exact ih
  | left _ ih => exact ih
  | right hLeft _ ih => exact hLeft.extends.trans ih
  | receiver _ ih => exact ih
  | argument hReceiver hBefore _ ih =>
      exact hReceiver.extends.trans (hBefore.extends.trans ih)

/- A failure in a list keeps what was added before it. -/
theorem FailsAmong.extends
    {es : List Expr}
    (hFails : FailsAmong resolver es s error t) :
    s.Extends t := by
  rcases hFails with ⟨_, _, _, _, _, _, hBefore, hFails⟩
  exact hBefore.extends.trans hFails.extends

end Expr

end TypedFlux

------------------------------------------------------------
-- Sound Drafts
------------------------------------------------------------

namespace TypedFlux

namespace Variables

/- Whether a variable has this name. -/
def Declares
    (vs : Variables)
    (x : String) : Prop :=
  ∃ v ∈ vs, v.name = x

/- Whether a variable behind the first two has this name. -/
def DeclaresLater
    (vs : Variables)
    (x : String) : Prop :=
  ∃ v ∈ vs.drop 2, v.name = x

/- Whether a variable of this name is as asked. -/
def Binds
    (vs : Variables)
    (x : String)
    (P : Variable → Prop) : Prop :=
  ∃ v ∈ vs, v.name = x ∧ P v

/- Every position has its name. -/
theorem declares_ofConstants
    {cs : List Constant}
    {k : Nat}
    (hLt : k < cs.length) :
    (ofConstants cs).Declares (nameAfter k) :=
  ⟨⟨nameAfter k, cs[k].value, cs[k].isTag⟩,
    List.mem_mapIdx.mpr ⟨k, hLt, rfl⟩, rfl⟩

/- The first two names are the bucket and the start. -/
theorem declaresLater_ofConstants
    {cs : List Constant}
    {k : Nat}
    (hLt : k < cs.length)
    (hLater : 2 ≤ k) :
    (ofConstants cs).DeclaresLater (nameAfter k) := by
  rcases Nat.exists_eq_add_of_le hLater with ⟨j, rfl⟩
  refine ⟨⟨nameAfter (2 + j), cs[2 + j].value,
    cs[2 + j].isTag⟩, ?_, rfl⟩
  rw [List.mem_drop_iff_getElem]
  refine ⟨j, ?_, ?_⟩
  · rw [length_ofConstants]
    omega
  · simp [ofConstants]

/- What is declared stays declared. -/
theorem Declares.mono
    {vs ws : Variables}
    {x : String}
    (hPrefix : vs <+: ws)
    (hDeclared : vs.Declares x) :
    ws.Declares x := by
  rcases hDeclared with ⟨v, hMem, hName⟩
  exact ⟨v, hPrefix.subset hMem, hName⟩

/- What a name stands for stays the same. -/
theorem Binds.mono
    {vs ws : Variables}
    {x : String}
    {P : Variable → Prop}
    (hPrefix : vs <+: ws)
    (hBinds : vs.Binds x P) :
    ws.Binds x P := by
  rcases hBinds with ⟨v, hMem, hVariable⟩
  exact ⟨v, hPrefix.subset hMem, hVariable⟩

theorem DeclaresLater.mono
    {vs ws : Variables}
    {x : String}
    (hPrefix : vs <+: ws)
    (hLater : vs.DeclaresLater x) :
    ws.DeclaresLater x := by
  rcases hLater with ⟨v, hMem, hName⟩
  rcases hPrefix with ⟨more, rfl⟩
  refine ⟨v, ?_, hName⟩
  rw [List.drop_append]
  exact List.mem_append_left _ hMem

/- The first start is not declared later. -/
theorem DeclaresLater.ne
    {cs : List Constant}
    {x : String}
    (hLater : (ofConstants cs).DeclaresLater x) :
    x ≠ nameAfter 1 := by
  rcases hLater with ⟨v, hMem, rfl⟩
  rw [List.mem_drop_iff_getElem] at hMem
  rcases hMem with ⟨j, hLt, rfl⟩
  intro hSame
  simp only [ofConstants, List.getElem_mapIdx] at hSame
  have hIndex := nameAfter_injective hSame
  omega

end Variables

/- A constant that was just named is a variable of its own. -/
theorem Scope.mem_bind
    (s : Scope)
    (value : Value) :
    ⟨s.options.nextName, value, false⟩ ∈
      (s.bind value).options := by
  simp [Scope.bind, Variables.add]

/- Whether a variable is a number of rows and not marked. -/
def Variable.IsCount (v : Variable) : Prop :=
  v.isTag = false ∧ v.value.IsCount

/-
  The variables, the range and the pipeline belong together.
  The first two variables are the bucket and the start of a
  range that nothing bounds.
-/
structure Draft.Sound
    (bucket : String)
    (d : Draft) : Prop where
  numbered : ∃ cs, d.scope.options = Variables.ofConstants
    ({ value := .string bucket } :: { value := .int 0 } :: cs)
  start : d.pipeline.start = Variables.nameAfter 1 ∨
    d.scope.options.DeclaresLater d.pipeline.start
  startUnset : d.pipeline.start = Variables.nameAfter 1 ↔
    d.range.marks.start = false
  stop : ∀ x, d.pipeline.stop? = some x →
    d.scope.options.DeclaresLater x
  stopUnset : d.pipeline.stop? = none ↔
    d.range.marks.stop = false
  limit : ∀ x, d.pipeline.limit? = some x →
    d.scope.options.Binds x Variable.IsCount
  offset : ∀ x, d.pipeline.offset? = some x →
    d.scope.options.Binds x Variable.IsCount
  tail : ∀ x, d.pipeline.tail? = some x →
    d.scope.options.Binds x Variable.IsCount
  tailTaken : d.tailTaken = true ↔
    d.pipeline.tail?.isSome = true
  sorts : ∀ sort ∈ d.pipeline.sorts,
    d.scope.options.Binds sort.descending
      fun v => ∃ b, v.value = .bool b
  filters : ∀ f ∈ d.pipeline.filters,
    ∀ x ∈ Scan.names f.toList, d.scope.options.Declares x

namespace Draft

open TypedFlux.Expr

variable {resolver : Resolver}
variable {bucket : String}
variable {d d' : Draft}

/- A new draft names its bucket and its start. -/
theorem new_sound
    (bucket : String) :
    (Draft.new bucket).Sound bucket where
  numbered := ⟨[], new_numbers bucket⟩
  start := .inl rfl
  startUnset := ⟨fun _ => rfl, fun _ => rfl⟩
  stop := by
    intro x hStop
    cases hStop
  stopUnset := ⟨fun _ => rfl, fun _ => rfl⟩
  limit := by
    intro x hLimit
    cases hLimit
  offset := by
    intro x hOffset
    cases hOffset
  tail := by
    intro x hTail
    cases hTail
  tailTaken := by
    simp [Draft.new, pipeline]
  sorts := by
    intro sort hSort
    cases hSort
  filters := by
    intro f hFilter
    cases hFilter

/- More variables do no harm. -/
theorem Sound.extend
    {s : Scope}
    (hSound : d.Sound bucket)
    (hExtends : d.scope.Extends s) :
    Sound bucket { d with scope := s } := by
  rcases hSound.numbered with ⟨cs, hNumbers⟩
  have hPrefix := hExtends.options_prefix hNumbers
  rcases hExtends _ hNumbers with ⟨ds, hMore⟩
  constructor
  · exact ⟨cs ++ ds, hMore⟩
  · exact hSound.start.imp_right (·.mono hPrefix)
  · exact hSound.startUnset
  · intro x hStop
    exact (hSound.stop x hStop).mono hPrefix
  · exact hSound.stopUnset
  · intro x hLimit
    exact (hSound.limit x hLimit).mono hPrefix
  · intro x hOffset
    exact (hSound.offset x hOffset).mono hPrefix
  · intro x hTail
    exact (hSound.tail x hTail).mono hPrefix
  · exact hSound.tailTaken
  · intro sort hSort
    exact (hSound.sorts sort hSort).mono hPrefix
  · intro f hFilter x hName
    exact (hSound.filters f hFilter x hName).mono hPrefix

/- A name that nothing uses yet does no harm. -/
theorem Sound.bind
    (hSound : d.Sound bucket)
    (value : Value) :
    (d.bind value).Sound bucket :=
  hSound.extend (d.scope.extends_bind value)

------------------------------------------------------------
-- Routes
------------------------------------------------------------

/- A variable behind the first two may bound the range. -/
theorem Sound.setBound
    {x : String}
    (hSound : d.Sound bucket)
    (hLater : d.scope.options.DeclaresLater x)
    (bound : Bound) :
    Sound bucket { d with range := d.range.set x bound } := by
  cases bound with
  | start =>
      have hOther : x ≠ Variables.nameAfter 1 := by
        rcases hSound.numbered with ⟨cs, hNumbers⟩
        rw [hNumbers] at hLater
        exact hLater.ne
      refine { hSound with
        start := .inr hLater, startUnset := ?_ }
      constructor
      · intro hSame
        exact absurd hSame hOther
      · intro hUnset
        cases hUnset
  | stop =>
      refine { hSound with stop := ?_, stopUnset := ?_ }
      · intro y hStop
        cases hStop
        exact hLater
      · constructor
        · intro hNone
          cases hNone
        · intro hUnset
          cases hUnset

/- A bound of the range has to be declared. -/
theorem Sound.assign
    {x : String}
    (hSound : d.Sound bucket)
    (hLater : d.scope.options.DeclaresLater x)
    (op : BinaryOp)
    (bounds : List Bound) :
    Sound bucket
      { d with range := (d.range.assign x op bounds).1 } := by
  induction bounds generalizing d with
  | nil => exact hSound
  | cons bound bounds ih =>
      exact ih (hSound.setBound hLater bound) hLater

/-
  Tests of the time keep a draft sound if what they compare
  with is declared.
-/
theorem Sound.narrow
    {part : Part}
    {range : Range}
    {events : List Event}
    (hSound : d.Sound bucket)
    (hLater : ∀ b timeAtLeft op,
      part.timeBound? = some (b, timeAtLeft, op) →
        ∃ x, b = .literal x ∧ d.scope.options.DeclaresLater x)
    (hRange : d.range.restrict part = .ok (range, events)) :
    (d.narrow range events).Sound bucket := by
  cases hBound : part.timeBound? with
  | none => simp [Range.restrict, hBound] at hRange
  | some found =>
      rcases found with ⟨b, timeAtLeft, op⟩
      rcases hLater b timeAtLeft op hBound with
        ⟨x, rfl, hDeclared⟩
      rw [d.range.restrict_literal hBound] at hRange
      cases hBounds : op.bounds timeAtLeft with
      | error error =>
          rw [hBounds] at hRange
          cases hRange
      | ok bounds =>
          rw [hBounds] at hRange
          have hAssigned := hSound.assign hDeclared op bounds
          rw [Except.ok.inj hRange] at hAssigned
          exact { hAssigned with }

/- Routing keeps a draft sound. -/
theorem Routes.sound
    {parts : List Part}
    {conditions : List String}
    (hRoutes : Routes parts d conditions d')
    (hSound : d.Sound bucket)
    (hLater : ∀ p ∈ parts, ∀ b timeAtLeft op,
      p.timeBound? = some (b, timeAtLeft, op) →
        ∃ x, b = .literal x ∧ d.scope.options.DeclaresLater x) :
    d'.Sound bucket := by
  induction hRoutes with
  | nil => exact hSound
  | bound hRange _ ih =>
      rw [List.forall_mem_cons] at hLater
      exact ih (hSound.narrow hLater.1 hRange) hLater.2
  | blank _ ih =>
      rw [List.forall_mem_cons] at hLater
      exact ih hSound hLater.2
  | condition _ _ _ ih =>
      rw [List.forall_mem_cons] at hLater
      exact ih hSound hLater.2

end Draft

namespace Expr

open Scope

variable {resolver : Resolver}
variable {cs : List Constant}

/- A bound has a constant of its own. -/
theorem constants_of_timeBound?
    {e : Expr}
    {found : Bool × BinaryOp}
    (hBound : e.timeBound? resolver = some found) :
    e.constants resolver false ≠ [] := by
  induction e with
  | binary op left right _ _ =>
      have hSide : (Drafting.constant? left).isSome = true ∨
          (Drafting.constant? right).isSome = true := by
        unfold timeBound? at hBound
        split at hBound
        · next hFirst =>
            rw [Bool.and_eq_true] at hFirst
            exact .inr hFirst.2
        · split at hBound
          · next hSecond =>
              simp only [Bool.and_eq_true] at hSecond
              exact .inl hSecond.1.2
          · cases hBound
      rw [constants]
      rcases hSide with hSide | hSide
      · rcases Option.isSome_iff_exists.mp hSide with
          ⟨value, hConstant⟩
        rw [constants_of_constant? _ hConstant]
        simp
      · rcases Option.isSome_iff_exists.mp hSide with
          ⟨value, hConstant⟩
        rw [constants_of_constant? _ hConstant]
        simp
  | unary op operand ih =>
      cases op with
      | convert =>
          rw [constants]
          exact ih hBound
      | not => cases hBound
      | negate => cases hBound
  | constant | member | index | call | parameter
  | conditional => cases hBound

/- Every bound that a walk finds is declared behind the first two. -/
theorem VisitsAll.declaresLater
    {es : List Expr}
    {ps : List Part}
    {s u : Scope}
    (hNumbers : s.Numbers cs)
    (hOpening : 2 ≤ cs.length)
    (hVisits : VisitsAll resolver es s ps u) :
    ∀ p ∈ ps, ∀ b timeAtLeft op,
      p.timeBound? = some (b, timeAtLeft, op) →
        ∃ x, b = .literal x ∧ u.options.DeclaresLater x := by
  induction es generalizing s ps cs with
  | nil =>
      cases hVisits with
      | nil => simp
  | cons e es ih =>
      cases hVisits with
      | cons hFirst hOthers =>
          have hNext := hFirst.numbers hNumbers
          rw [List.forall_mem_cons]
          constructor
          · intro b timeAtLeft op hBound
            rw [hFirst.timeBound?_eq hNumbers,
              Option.map_eq_some_iff] at hBound
            rcases hBound with ⟨found, hFound, hSame⟩
            cases hSame
            have hOwn := List.length_pos_iff.mpr
              (constants_of_timeBound? hFound)
            have hLt : cs.length <
                (cs ++ e.constants resolver false).length := by
              rw [List.length_append]
              omega
            have hDeclared :=
              Variables.declaresLater_ofConstants hLt hOpening
            rw [← hNext] at hDeclared
            exact ⟨_, rfl, hDeclared.mono
              (hOthers.extends.options_prefix hNext)⟩
          · apply ih hNext _ hOthers
            rw [List.length_append]
            omega

end Expr

------------------------------------------------------------
-- Clauses
------------------------------------------------------------

namespace Draft

variable {bucket : String}
variable {d : Draft}

/- Conditions may name what is declared. -/
theorem Sound.addConditions
    {conditions : List String}
    (hSound : d.Sound bucket)
    (hNames : ∀ x ∈ Scan.names
      (" and ".intercalate conditions).toList,
        d.scope.options.Declares x) :
    (d.addConditions conditions).Sound bucket := by
  cases conditions with
  | nil => exact hSound
  | cons first others =>
      refine { hSound with filters := ?_ }
      intro f hMem
      rcases List.mem_append.mp hMem with hMem | hMem
      · exact hSound.filters f hMem
      · rw [List.mem_singleton.mp hMem]
        exact hNames

/- A direction is declared as a truth value. -/
theorem Sound.addSort
    {x : String}
    (hSound : d.Sound bucket)
    (hBinds : d.scope.options.Binds x
      fun v => ∃ b, v.value = .bool b)
    (column : String) :
    (d.mapPipeline (·.addSort column x)).Sound bucket := by
  refine { hSound with sorts := ?_ }
  intro sort hMem
  rcases List.mem_append.mp hMem with hMem | hMem
  · exact hSound.sorts sort hMem
  · rw [List.mem_singleton.mp hMem]
    exact hBinds

end Draft

namespace Drafting

open Draft TypedFlux.Expr

variable {resolver : Resolver}
variable {bucket : String}
variable {d : Draft}

/- A filter leaves a sound draft, also where it fails midway. -/
theorem filter_sound
    (predicate : Expr)
    (hSound : d.Sound bucket) :
    (filter resolver predicate d).2.Sound bucket := by
  rcases hSound.numbered with ⟨cs, hNumbers⟩
  have hLater : ∀ {parts s},
      VisitsAll resolver predicate.conjuncts d.scope parts s →
        ∀ p ∈ parts, ∀ b timeAtLeft op,
          p.timeBound? = some (b, timeAtLeft, op) →
            ∃ x, b = .literal x ∧
              s.options.DeclaresLater x :=
    fun hVisits => hVisits.declaresLater hNumbers (by simp)
  rcases hFilter : filter resolver predicate d with
    ⟨error | ⟨⟩, d'⟩
  · rcases filter_eq_error hFilter with
      ⟨t, hFails, rfl⟩ | ⟨parts, s, hVisits, hStops⟩
    · exact hSound.extend hFails.extends
    · rcases hStops with
        ⟨before, part, after, conditions, rfl, hRoutes, _⟩
      apply hRoutes.sound (hSound.extend hVisits.extends)
      intro p hMem
      exact hLater hVisits p (List.mem_append_left _ hMem)
  · rcases filter_eq_ok.mp hFilter with
      ⟨parts, s, conditions, e, hVisits, hRoutes, rfl⟩
    have hRouted := hRoutes.sound
      (hSound.extend hVisits.extends) (hLater hVisits)
    apply hRouted.addConditions
    intro x hMem
    rw [(hRoutes.parts_eq hNumbers hVisits).1] at hMem
    rcases Conjunct.exists_of_mem_names
      (hVisits.expressible_of
        fun _ _ _ _ _ hVisit => hVisit.expressible) hMem with
      ⟨k, hLt, rfl⟩
    rw [hRoutes.options_eq, hVisits.numbers hNumbers]
    apply Variables.declares_ofConstants
    rw [List.length_append]
    exact hLt

/- So does a key to sort by. -/
theorem orderBy_sound
    (key : SortKey)
    (hSound : d.Sound bucket) :
    (orderBy resolver key d).2.Sound bucket := by
  rcases hOrder : orderBy resolver key d with
    ⟨error | ⟨⟩, d'⟩
  · rcases orderBy_eq_error hOrder with
      ⟨t, hFails, rfl⟩ | ⟨p, s, hVisits, _, _, rfl⟩
    · exact hSound.extend hFails.extends
    · exact hSound.extend hVisits.extends
  · rcases orderBy_eq_ok.mp hOrder with
      ⟨role, column, s, hVisits, rfl⟩
    have hWalked := hSound.extend hVisits.extends
    exact (hWalked.bind _).addSort
      ⟨_, Scope.mem_bind s _, rfl, _, rfl⟩ column

/- A clause keeps a draft sound, even if it fails. -/
theorem clause_sound
    (c : BodyClause)
    (hSound : d.Sound bucket) :
    (clause resolver c d).2.Sound bucket := by
  cases c with
  | filter predicate => exact filter_sound predicate hSound
  | order keys =>
      exact Step.forM_keeps
        (fun key _ hSound => orderBy_sound key hSound) hSound

end Drafting

------------------------------------------------------------
-- Operators
------------------------------------------------------------

namespace Draft

variable {bucket : String}
variable {d : Draft}

/- A number of rows that was just named may be counted. -/
theorem binds_count
    {value : Value}
    (d : Draft)
    (hCount : Drafting.isCount value = true) :
    (d.bind value).scope.options.Binds d.scope.options.nextName
      Variable.IsCount :=
  ⟨_, d.scope.mem_bind value, rfl, rfl,
    value.isCount_iff.mp hCount⟩

end Draft

namespace Drafting

open Draft

variable {bucket : String}
variable {d : Draft}

/- An operator keeps a draft sound, even if it fails. -/
theorem operator_sound
    (op : ResultOperator)
    (hSound : d.Sound bucket) :
    (operator op d).2.Sound bucket := by
  rcases hOperator : operator op d with ⟨error | ⟨⟩, d'⟩
  · rw [(operator_eq_error hOperator).2]
    exact hSound
  · cases operates_iff.mp hOperator with
    | @take _ value _ _ _ hCount =>
        refine { hSound.bind value with limit := ?_ }
        intro x hLimit
        cases hLimit
        exact d.binds_count hCount
    | @skip _ value _ _ _ hCount =>
        refine { hSound.bind value with offset := ?_ }
        intro x hOffset
        cases hOffset
        exact d.binds_count hCount
    | @takeLast _ value _ _ hCount =>
        refine { hSound.bind value with
          tail := ?_, tailTaken := ?_ }
        · intro x hTail
          cases hTail
          exact d.binds_count hCount
        · exact ⟨fun _ => rfl, fun _ => rfl⟩
    | any => exact hSound
    | count => exact { hSound with }
    | longCount => exact { hSound with }

end Drafting

end TypedFlux

------------------------------------------------------------
-- Sequences of Queries
------------------------------------------------------------

namespace TypedFlux

namespace Draft

/- Take up queries, as far as possible. -/
def addAll
    (d : Draft)
    (resolver : Resolver)
    (qs : List Query) : Draft :=
  qs.foldl (fun d q => (d.addQuery resolver q).2) d

variable {bucket : String}
variable {d : Draft}

/- A whole query leaves a sound draft. -/
theorem Sound.addQuery
    (hSound : d.Sound bucket)
    (resolver : Resolver)
    (q : Query) :
    (d.addQuery resolver q).2.Sound bucket := by
  have hBody : (q.body.forM (Drafting.clause resolver) d).2.Sound
      bucket :=
    Step.forM_keeps
      (fun c _ hSound => Drafting.clause_sound c hSound) hSound
  exact Step.bind_keeps hBody fun _ _ hSound =>
    Step.forM_keeps
      (fun op _ hSound => Drafting.operator_sound op hSound)
      hSound

/- Every draft is sound, whatever queries were taken up. -/
theorem sound_addAll
    (bucket : String)
    (resolver : Resolver)
    (qs : List Query) :
    ((Draft.new bucket).addAll resolver qs).Sound bucket := by
  unfold addAll
  generalize hStart : Draft.new bucket = d
  have hSound : d.Sound bucket := hStart ▸ new_sound bucket
  clear hStart
  induction qs generalizing d with
  | nil => exact hSound
  | cons q qs ih => exact ih _ (hSound.addQuery resolver q)

end Draft

end TypedFlux
