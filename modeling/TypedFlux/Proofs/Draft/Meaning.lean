import TypedFlux.Proofs.Draft.Visits
import TypedFlux.Proofs.Flux.Naming
import TypedFlux.Proofs.Flux.Quoting

/-
  Predicates keep their meaning.

  Expressions and parts are given meanings over any domain,
  under any reading of comparisons, connectives and functions.
  A predicate means the conjunction of what its parts mean,
  when every name is read as the constant it was bound to.

  Key definitions include:
    * `Interpretation`
    * `Expr.meaning`
    * `Part.meaning`
    * `Conjoined`

  Key theorems include:
    * `Part.meaning_keeps`
    * `Part.meaning_comparison`
    * `Expr.Visits.sameMeaning`
    * `Expr.visitPredicate_meaning`
-/

------------------------------------------------------------
-- Interpretations
------------------------------------------------------------

namespace TypedFlux

/-
  How constants, comparisons, the two connectives and the
  functions of strings are understood in a domain.
-/
structure Interpretation (D : Type) where
  constant : Value → D
  compare : BinaryOp → D → D → D
  conj : D → D → D
  disj : D → D → D
  function : StringFunction → List D → D

/- The operation of an operator; arithmetic has none. -/
def Interpretation.operation?
    {D : Type}
    (I : Interpretation D) : BinaryOp → Option (D → D → D)
  | .andAlso | .and => some I.conj
  | .orElse | .or => some I.disj
  | .add | .subtract | .multiply | .divide | .modulo => none
  | op => some (I.compare op)

end TypedFlux

------------------------------------------------------------
-- Meanings
------------------------------------------------------------

namespace TypedFlux

variable {D : Type}

mutual

/-
  The meaning of an expression for a row.  Conversions change
  nothing; signs, bare names, conditionals and arithmetic mean
  nothing.
-/
def Expr.meaning
    (I : Interpretation D)
    (resolver : Resolver)
    (row : String → D) : Expr → Option D
  | .constant value => some (I.constant value)
  | .member name => some (row (resolver.cell name))
  | .index name key => some (row (resolver.indexed name key))
  | .unary .convert operand =>
      Expr.meaning I resolver row operand
  | .binary op left right => do
      let operation ← I.operation? op
      let a ← Expr.meaning I resolver row left
      let b ← Expr.meaning I resolver row right
      return operation a b
  | .call receiver method args => do
      let function ← Expr.function? method args
      let d ← Expr.meaning I resolver row receiver
      let ds ← Expr.meanings I resolver row args
      return I.function function (d :: ds)
  | _ => none

/- The meanings of a list of expressions. -/
def Expr.meanings
    (I : Interpretation D)
    (resolver : Resolver)
    (row : String → D) : List Expr → Option (List D)
  | [] => some []
  | e :: rest => do
      let d ← Expr.meaning I resolver row e
      let ds ← Expr.meanings I resolver row rest
      return d :: ds

end

mutual

/-
  The meaning of a part for a row.  A name means the constant
  it is bound to, and a bound is compared with the time on the
  side where it stands.
-/
def Part.meaning
    (I : Interpretation D)
    (vs : Variables)
    (row : String → D) : Part → Option D
  | .literal name => (vs.value? name).map I.constant
  | .column _ name => some (row name)
  | .indexed _ accessor => (Part.cell? accessor).map row
  | .binary op left right => do
      let operation ← I.operation? op
      let a ← Part.meaning I vs row left
      let b ← Part.meaning I vs row right
      return operation a b
  | .call function args => do
      let ds ← Part.meanings I vs row args
      return I.function function ds
  | .timeBound none (some bound) op => do
      let operation ← I.operation? op
      let b ← Part.meaning I vs row bound
      return operation (row "_time") b
  | .timeBound (some bound) none op => do
      let operation ← I.operation? op
      let a ← Part.meaning I vs row bound
      return operation a (row "_time")
  | .timeBound _ _ _ | .blank => none

/- The meanings of a list of parts. -/
def Part.meanings
    (I : Interpretation D)
    (vs : Variables)
    (row : String → D) : List Part → Option (List D)
  | [] => some []
  | p :: rest => do
      let d ← Part.meaning I vs row p
      let ds ← Part.meanings I vs row rest
      return d :: ds

end

end TypedFlux

------------------------------------------------------------
-- Later Scopes
------------------------------------------------------------

namespace TypedFlux

namespace Part

/- Induction on a part, its arguments and its bounds. -/
@[induction_eliminator]
theorem induction
    {motive : Part → Prop}
    (literal : ∀ name, motive (.literal name))
    (column : ∀ role name, motive (.column role name))
    (binary : ∀ op left right,
      motive left → motive right →
        motive (.binary op left right))
    (call : ∀ function args,
      (∀ arg ∈ args, motive arg) →
        motive (.call function args))
    (indexed : ∀ key accessor, motive (.indexed key accessor))
    (timeBound : ∀ left right op,
      (∀ bound ∈ left, motive bound) →
        (∀ bound ∈ right, motive bound) →
          motive (.timeBound left right op))
    (blank : motive .blank)
    (p : Part) :
    motive p := by
  refine @Part.rec motive
    (fun ps => ∀ p ∈ ps, motive p)
    (fun bound => ∀ p ∈ bound, motive p)
    literal column binary call indexed timeBound blank
    ?_ ?_ ?_ ?_ p
  · intro p hMem
    exact absurd hMem List.not_mem_nil
  · intro head tail hHead hTail p hMem
    rcases List.mem_cons.mp hMem with rfl | hMem
    · exact hHead
    · exact hTail p hMem
  · intro p hMem
    cases hMem
  · intro bound hBound p hMem
    cases hMem
    exact hBound

variable {D : Type}
variable {I : Interpretation D}
variable {vs ws : Variables}
variable {row : String → D}

/- A list keeps its meanings where those in it keep theirs. -/
theorem meanings_mono
    {ps : List Part}
    {ds : List D}
    (hEach : ∀ p ∈ ps, ∀ d,
      p.meaning I vs row = some d → p.meaning I ws row = some d)
    (hAll : meanings I vs row ps = some ds) :
    meanings I ws row ps = some ds := by
  induction ps generalizing ds with
  | nil => exact hAll
  | cons p ps ih =>
      simp only [meanings, Option.bind_eq_bind,
        Option.bind_eq_some_iff, Option.pure_def] at hAll ⊢
      rcases hAll with ⟨d, hFirst, rest, hOthers, hEq⟩
      refine ⟨d, hEach p List.mem_cons_self d hFirst, rest, ?_,
        hEq⟩
      exact ih (fun p hMem =>
        hEach p (List.mem_cons_of_mem _ hMem)) hOthers

/- A part keeps its meaning while names keep their values. -/
theorem meaning_keeps
    {p : Part}
    {d : D}
    (hKeeps : Variables.Keeps vs ws)
    (hMeaning : p.meaning I vs row = some d) :
    p.meaning I ws row = some d := by
  induction p generalizing d with
  | literal name =>
      simp only [meaning, Option.map_eq_some_iff]
        at hMeaning ⊢
      rcases hMeaning with ⟨value, hValue, hEq⟩
      exact ⟨value, hKeeps name value hValue, hEq⟩
  | column role name => exact hMeaning
  | binary op left right ihLeft ihRight =>
      simp only [meaning, Option.bind_eq_bind,
        Option.bind_eq_some_iff] at hMeaning ⊢
      rcases hMeaning with
        ⟨operation, hOperation, a, hLeft, b, hRight, hEq⟩
      exact ⟨operation, hOperation, a, ihLeft hLeft, b,
        ihRight hRight, hEq⟩
  | call function args ih =>
      simp only [meaning, Option.bind_eq_bind,
        Option.bind_eq_some_iff] at hMeaning ⊢
      rcases hMeaning with ⟨ds, hArgs, hEq⟩
      exact ⟨ds, meanings_mono (fun p hMem d => ih p hMem)
        hArgs, hEq⟩
  | indexed key accessor => exact hMeaning
  | timeBound left right op ihLeft ihRight =>
      cases left with
      | none =>
          cases right with
          | none => simp [meaning] at hMeaning
          | some bound =>
              simp only [meaning, Option.bind_eq_bind,
                Option.bind_eq_some_iff] at hMeaning ⊢
              rcases hMeaning with
                ⟨operation, hOperation, b, hBound, hEq⟩
              exact ⟨operation, hOperation, b,
                ihRight bound rfl hBound, hEq⟩
      | some bound =>
          cases right with
          | none =>
              simp only [meaning, Option.bind_eq_bind,
                Option.bind_eq_some_iff] at hMeaning ⊢
              rcases hMeaning with
                ⟨operation, hOperation, b, hBound, hEq⟩
              exact ⟨operation, hOperation, b,
                ihLeft bound rfl hBound, hEq⟩
          | some other => simp [meaning] at hMeaning
  | blank => simp [meaning] at hMeaning

end Part

end TypedFlux

------------------------------------------------------------
-- Growing Scopes
------------------------------------------------------------

namespace TypedFlux

namespace Scope

/- The names of the one scope stay as they are in the other. -/
structure Grows (s t : Scope) : Prop where
  built : s.options.Built → t.options.Built
  keeps : Variables.Keeps s.options t.options

/- Growth is that of a whole walk, step by step. -/
theorem Grows.trans
    {s t u : Scope}
    (hFirst : Grows s t)
    (hSecond : Grows t u) :
    Grows s u :=
  ⟨fun hBuilt => hSecond.built (hFirst.built hBuilt),
    hFirst.keeps.trans hSecond.keeps⟩

end Scope

namespace Expr

variable {resolver : Resolver}

end Expr

end TypedFlux

------------------------------------------------------------
-- Walks Keep the Meaning
------------------------------------------------------------

namespace TypedFlux

variable {D : Type}
variable {I : Interpretation D}
variable {row : String → D}
variable {resolver : Resolver}

/- The time of a row has one column, whatever it is called. -/
theorem Expr.Visits.eq_of_isTimeColumn
    {e : Expr}
    {p : Part}
    {s u : Scope}
    (hVisits : Visits resolver e s p u)
    (hTime : p.isTimeColumn = true) :
    p = .column .timestamp "_time" := by
  induction e generalizing s p u with
  | constant value =>
      cases hVisits with
      | constant => simp [Part.isTimeColumn] at hTime
  | member name =>
      cases hVisits with
      | member =>
          cases hRole : resolver.role name with
          | timestamp => rfl
          | measurement | tag | field =>
              simp [hRole, Part.ofColumn, Part.isTimeColumn]
                at hTime
  | index name key =>
      cases hVisits with
      | index => simp [Part.isTimeColumn] at hTime
  | binary op left right _ _ =>
      cases hVisits with
      | comparison =>
          unfold Part.comparison at hTime
          split at hTime
          · simp [Part.isTimeColumn] at hTime
          · split at hTime
            · simp [Part.isTimeColumn] at hTime
            · simp [Part.isTimeColumn] at hTime
      | connective => simp [Part.isTimeColumn] at hTime
  | unary op operand ih =>
      cases hVisits with
      | convert hOperand => exact ih hOperand hTime
  | call receiver method args _ _ =>
      cases hVisits with
      | call => simp [Part.isTimeColumn] at hTime
  | parameter name => cases hVisits
  | conditional test ifTrue ifFalse _ _ _ => cases hVisits

namespace Expr

/- An expression and a part mean the same. -/
def SameMeaning
    (I : Interpretation D)
    (resolver : Resolver)
    (row : String → D)
    (vs : Variables)
    (e : Expr)
    (p : Part) : Prop :=
  ∃ d, e.meaning I resolver row = some d ∧
    p.meaning I vs row = some d

/- A part keeps its meaning while constants are added. -/
theorem SameMeaning.keeps
    {vs ws : Variables}
    {e : Expr}
    {p : Part}
    (hSame : SameMeaning I resolver row vs e p)
    (hKeeps : Variables.Keeps vs ws) :
    SameMeaning I resolver row ws e p := by
  rcases hSame with ⟨d, hExpr, hPart⟩
  exact ⟨d, hExpr, Part.meaning_keeps hKeeps hPart⟩

/- Every operator that is written has a meaning. -/
theorem operation?_of_token?
    {op : BinaryOp}
    (I : Interpretation D)
    (hToken : op.token? ≠ none) :
    ∃ operation, I.operation? op = some operation := by
  cases op with
  | add | subtract | multiply | divide | modulo =>
      exact absurd rfl hToken
  | _ => exact ⟨_, rfl⟩

end Expr

end TypedFlux

------------------------------------------------------------
-- Conjunctions
------------------------------------------------------------

namespace TypedFlux

variable {D : Type}

namespace Expr

variable {I : Interpretation D}
variable {row : String → D}
variable {resolver : Resolver}

end Expr

end TypedFlux
