import TypedFlux.Proofs.Draft.Planning
import TypedFlux.Proofs.Flux.Naming

/-
  The constants of a query, in their order.

  Which constants a query names, in which order and with which
  marks can be told from the query alone: from left to right,
  and marked exactly where a tag stands on the other side.  The
  options of its script are these constants and no others.

  Key definitions include:
    * `Constant`, `Variables.ofConstants`
    * `Expr.member?`, `Expr.isTag`
    * `Expr.constants`, `Query.constants`
    * `Scope.Numbers`

  Key theorems include:
    * `Expr.Visits.role?_eq`
    * `Expr.Visits.numbers`
    * `Draft.ofQuery_numbers`
    * `Draft.statements_script`
-/

------------------------------------------------------------
-- Constants and their Names
------------------------------------------------------------

namespace TypedFlux

/- A constant; `isTag` if it is compared with a tag. -/
structure Constant where
  value : Value
  isTag : Bool := false

namespace Variables

/- Constants under the names of their positions. -/
def ofConstants (cs : List Constant) : Variables :=
  cs.mapIdx fun i c => ⟨nameAfter i, c.value, c.isTag⟩

@[simp] theorem length_ofConstants
    (cs : List Constant) :
    (ofConstants cs).length = cs.length := by
  simp [ofConstants]

/- The next name follows those that are taken. -/
theorem nextName_ofConstants
    (cs : List Constant) :
    (ofConstants cs).nextName = nameAfter cs.length := by
  simp [nextName]

/-
  A new constant takes the name behind all others and leaves
  theirs as they are.
-/
theorem ofConstants_concat
    (cs : List Constant)
    (c : Constant) :
    ofConstants (cs ++ [c]) =
      ofConstants cs
        ++ [⟨nameAfter cs.length, c.value, c.isTag⟩] :=
  List.mapIdx_concat

/- What is added to a script is no tag at first. -/
theorem ofConstants_add
    (cs : List Constant)
    (value : Value) :
    (ofConstants cs).add value =
      ofConstants (cs ++ [{ value := value }]) := by
  unfold add
  rw [nextName_ofConstants, ofConstants_concat]

/- The statements of a script, as they are written. -/
theorem statements_ofConstants
    (cs : List Constant) :
    (ofConstants cs).statements =
      cs.mapIdx fun i c =>
        "option " ++ nameAfter i ++ " = "
          ++ (Literal.ofValue c.isTag c.value).text := by
  apply List.ext_getElem?
  intro i
  simp [statements, ofConstants, Function.comp_def,
    Variable.statement, Variable.literal]

/- A name that nothing has marks nothing. -/
theorem markTag_of_absent
    {vs : Variables}
    {name : String}
    (hAbsent : ∀ v ∈ vs, v.name ≠ name) :
    vs.markTag name = vs := by
  unfold markTag
  conv => rhs; rw [← List.map_id vs]
  apply List.map_congr_left
  intro v hMem
  rw [if_neg (hAbsent v hMem)]
  rfl

/- Marking the last name marks the last constant only. -/
theorem ofConstants_markTag
    (cs : List Constant)
    (value : Value)
    (isTag : Bool) :
    (ofConstants (cs ++ [⟨value, isTag⟩])).markTag
        (nameAfter cs.length) =
      ofConstants (cs ++ [⟨value, true⟩]) := by
  have hEarlier : (ofConstants cs).markTag
      (nameAfter cs.length) = ofConstants cs := by
    apply markTag_of_absent
    intro v hMem hSame
    rcases List.mem_mapIdx.mp hMem with ⟨i, hLt, rfl⟩
    have hEq := nameAfter_injective hSame
    omega
  rw [ofConstants_concat, ofConstants_concat]
  unfold markTag at hEarlier ⊢
  rw [List.map_append, hEarlier]
  simp

end Variables

end TypedFlux

------------------------------------------------------------
-- Constants of a Query
------------------------------------------------------------

namespace TypedFlux

namespace Expr

/- The member below conversions. -/
def member? : Expr → Option String
  | .member name => some name
  | .unary .convert operand => operand.member?
  | _ => none

/- Whether an expression is a tag of a row. -/
def isTag
    (resolver : Resolver)
    (e : Expr) : Bool :=
  e.member?.any fun name => resolver.role name = .tag

mutual

/-
  The constants of an expression from left to right, without
  the keys of indexed members.  `isTag` if the expression is
  compared with a tag.
-/
def constants
    (resolver : Resolver)
    (isTag : Bool) : Expr → List Constant
  | .constant value => [⟨value, isTag⟩]
  | .member _ | .index _ _ | .parameter _ => []
  | .binary op left right =>
      constants resolver
          (op.isComparison && right.isTag resolver) left
        ++ constants resolver
          (op.isComparison && left.isTag resolver) right
  | .unary .convert operand => constants resolver isTag operand
  | .unary _ operand => constants resolver false operand
  | .call receiver _ args =>
      constants resolver false receiver
        ++ allConstants resolver args
  | .conditional test ifTrue ifFalse =>
      constants resolver false test
        ++ constants resolver false ifTrue
        ++ constants resolver false ifFalse

/- The constants of a list of expressions. -/
def allConstants
    (resolver : Resolver) : List Expr → List Constant
  | [] => []
  | e :: rest =>
      constants resolver false e ++ allConstants resolver rest

end

end Expr

/- The direction of a key, as a constant. -/
def SortKey.constant (key : SortKey) : Constant where
  value := .bool (key.direction == .descending)

/- The constants of a clause. -/
def BodyClause.constants
    (resolver : Resolver) : BodyClause → List Constant
  | .filter predicate => predicate.constants resolver false
  | .order keys => keys.map SortKey.constant

/- The number of an operator, if it has one. -/
def ResultOperator.constants
    (op : ResultOperator) : List Constant :=
  (op.count?.bind Drafting.constant?).toList.map fun value =>
    { value := value }

/- An operator has the constant that it counts by. -/
theorem ResultOperator.constants_eq
    {op : ResultOperator}
    {n : Expr}
    {value : Value}
    (hCount : op.count? = some n)
    (hConstant : Drafting.constant? n = some value) :
    op.constants = [{ value := value }] := by
  simp [constants, hCount, hConstant]

/- All constants of a query behind the bucket and the start. -/
def Query.constants
    (bucket : String)
    (resolver : Resolver)
    (q : Query) : List Constant :=
  [{ value := .string bucket }, { value := .int 0 }]
    ++ q.body.flatMap (·.constants resolver)
    ++ q.operators.flatMap (·.constants)

namespace Expr

variable {resolver : Resolver}

theorem allConstants_append
    (es fs : List Expr) :
    allConstants resolver (es ++ fs) =
      allConstants resolver es ++ allConstants resolver fs := by
  induction es with
  | nil => simp [allConstants]
  | cons e es ih => simp [allConstants, ih]

theorem allConstants_singleton
    (e : Expr) :
    allConstants resolver [e] =
      e.constants resolver false := by
  simp [allConstants]

/- Conjunctions compare nothing, so they mark nothing. -/
theorem allConstants_conjuncts
    (e : Expr) :
    allConstants resolver e.conjuncts =
      e.constants resolver false := by
  induction e with
  | binary op left right ihLeft ihRight =>
      unfold conjuncts
      split
      · next hConjunction =>
          have hOther : op.isComparison = false := by
            cases op with
            | andAlso | and => rfl
            | _ => cases hConjunction
          rw [allConstants_append, ihLeft, ihRight]
          simp [constants, hOther]
      · exact allConstants_singleton _
  | unary op operand ih =>
      cases op with
      | convert => simpa [conjuncts, constants] using ih
      | not => exact allConstants_singleton _
      | negate => exact allConstants_singleton _
  | constant | member | index | call | parameter
  | conditional => exact allConstants_singleton _

/- A constant below conversions is the only one. -/
theorem constants_of_constant?
    {e : Expr}
    {value : Value}
    (isTag : Bool)
    (hConstant : Drafting.constant? e = some value) :
    e.constants resolver isTag = [⟨value, isTag⟩] := by
  induction e with
  | constant _ =>
      cases hConstant
      simp [constants]
  | unary op operand ih =>
      cases op with
      | convert => simpa [constants] using ih hConstant
      | not => cases hConstant
      | negate => cases hConstant
  | member | index | binary | call | parameter
  | conditional => cases hConstant

/- A mark reaches no deeper than to a constant itself. -/
theorem constants_of_constant?_none
    {e : Expr}
    (isTag : Bool)
    (hConstant : Drafting.constant? e = none) :
    e.constants resolver isTag =
      e.constants resolver false := by
  induction e with
  | constant _ => cases hConstant
  | unary op operand ih =>
      cases op with
      | convert => simpa [constants] using ih hConstant
      | not => simp [constants]
      | negate => simp [constants]
  | member | index | binary | call | parameter
  | conditional => simp [constants]

/- A member has no constants, converted or not. -/
theorem constants_of_member?
    {e : Expr}
    {name : String}
    (isTag : Bool)
    (hMember : e.member? = some name) :
    e.constants resolver isTag = [] := by
  induction e with
  | member _ => simp [constants]
  | unary op operand ih =>
      cases op with
      | convert => simpa [constants] using ih hMember
      | not => cases hMember
      | negate => cases hMember
  | constant | index | binary | call | parameter
  | conditional => cases hMember

/- A tag is a member, so it has no constants either. -/
theorem constants_of_isTag
    {e : Expr}
    (isTag : Bool)
    (hTag : e.isTag resolver = true) :
    e.constants resolver isTag = [] := by
  rcases (Option.any_eq_true _ _).mp hTag with
    ⟨name, hMember, _⟩
  exact constants_of_member? isTag hMember

end Expr

end TypedFlux

------------------------------------------------------------
-- Walks Number the Constants
------------------------------------------------------------

namespace TypedFlux

/- The role of a column. -/
def Part.role? : Part → Option Role
  | .column role _ => some role
  | _ => none

/- A comparison is no column, whatever it compares. -/
theorem Part.role?_comparison
    (op : BinaryOp)
    (p q : Part) :
    (Part.comparison op p q).role? = none := by
  rcases Part.comparison_cases op p q with
    ⟨hEq, _⟩ | ⟨hEq, _⟩ | hEq
  · rw [hEq]
    rfl
  · rw [hEq]
    rfl
  · rw [hEq]
    rfl

namespace Expr

variable {resolver : Resolver}

/- The columns are the members, with the roles of these. -/
theorem Visits.role?_eq
    {e : Expr}
    {p : Part}
    {s u : Scope}
    (hVisits : Visits resolver e s p u) :
    p.role? = e.member?.map resolver.role := by
  induction e generalizing s p u with
  | constant value =>
      cases hVisits with
      | constant => rfl
  | member name =>
      cases hVisits with
      | member =>
          rw [Part.ofColumn_eq_cell]
          rfl
  | index name key =>
      cases hVisits with
      | index => rfl
  | binary op left right _ _ =>
      cases hVisits with
      | comparison => exact Part.role?_comparison _ _ _
      | connective => rfl
  | unary op operand ih =>
      cases hVisits with
      | convert hOperand => exact ih hOperand
  | call receiver method args _ _ =>
      cases hVisits with
      | call => rfl
  | parameter name => cases hVisits
  | conditional test ifTrue ifFalse _ _ _ => cases hVisits

/- A constant gets the name that is next. -/
theorem Visits.eq_nextName
    {e : Expr}
    {x : String}
    {s u : Scope}
    (hVisits : Visits resolver e s (.literal x) u) :
    x = s.options.nextName := by
  -- only constants become literals
  have hConstant := hVisits.fits.literal
  induction e generalizing s u with
  | constant value =>
      cases hVisits with
      | constant => rfl
  | unary op operand ih =>
      cases hVisits with
      | convert hOperand =>
          exact ih hOperand hOperand.fits.literal
  | member | index | binary | call | parameter
  | conditional => cases hConstant

end Expr

namespace Scope

variable {resolver : Resolver}
variable {s : Scope}
variable {cs : List Constant}

/- The variables of a scope are these constants. -/
def Numbers
    (s : Scope)
    (cs : List Constant) : Prop :=
  s.options = Variables.ofConstants cs

/- The next name is told by the number of constants. -/
theorem Numbers.nextName_eq
    (hNumbers : s.Numbers cs) :
    s.options.nextName = Variables.nameAfter cs.length := by
  rw [hNumbers, Variables.nextName_ofConstants]

/- Binding a value puts it behind the constants so far. -/
theorem Numbers.bind
    (hNumbers : s.Numbers cs)
    (value : Value) :
    (s.bind value).Numbers (cs ++ [{ value := value }]) := by
  unfold Numbers Scope.bind at *
  rw [hNumbers]
  exact Variables.ofConstants_add cs value

/- A call needs no name. -/
theorem Numbers.call
    (hNumbers : s.Numbers cs)
    (function : StringFunction) :
    (s.call function).Numbers cs := by
  unfold Scope.call
  split
  · exact hNumbers
  · exact hNumbers

/- Only a tag marks the constant next to it. -/
theorem markAgainst_of_role?
    {p : Part}
    (q : Part)
    (hRole : p.role? ≠ some .tag) :
    s.markAgainst p q = s := by
  unfold markAgainst
  split
  · exact absurd rfl hRole
  · rfl

/-
  The constants named last are those of `f`, which became `q`.
  If `f` is a constant and `e` is a tag, it is marked.
-/
theorem Numbers.markAgainst
    {p q : Part}
    {e f : Expr}
    (hNumbers : s.Numbers (cs ++ f.constants resolver false))
    (hRole : p.role? = e.member?.map resolver.role)
    (hLiteral : q.isLiteral = (Drafting.constant? f).isSome)
    (hName : ∀ x, q = .literal x →
      x = Variables.nameAfter cs.length) :
    (s.markAgainst p q).Numbers
      (cs ++ f.constants resolver (e.isTag resolver)) := by
  cases hTag : e.isTag resolver with
  | false =>
      have hOther : p.role? ≠ some .tag := by
        intro hTagged
        rw [hTagged] at hRole
        rcases Option.map_eq_some_iff.mp hRole.symm with
          ⟨name, hMember, hRole⟩
        simp [Expr.isTag, hMember, hRole] at hTag
      rw [markAgainst_of_role? q hOther]
      exact hNumbers
  | true =>
      cases hConstant : Drafting.constant? f with
      | none =>
          rw [Expr.constants_of_constant?_none true hConstant]
          rw [hConstant] at hLiteral
          unfold Scope.markAgainst
          split
          · cases hLiteral
          · exact hNumbers
      | some value =>
          rw [hConstant] at hLiteral
          rcases Part.eq_literal_of_isLiteral hLiteral with
            ⟨x, rfl⟩
          rcases (Option.any_eq_true _ _).mp hTag with
            ⟨name, hMember, hTagged⟩
          have hColumn : p.role? = some .tag := by
            rw [hRole, hMember]
            simpa using hTagged
          rw [Expr.constants_of_constant? false hConstant]
            at hNumbers
          rw [Expr.constants_of_constant? true hConstant]
          cases p with
          | column role column =>
              cases hColumn
              change (s.options.markTag x) = _
              rw [hName x rfl, hNumbers]
              exact Variables.ofConstants_markTag cs value false
          | literal | binary | call | indexed | timeBound
          | blank => cases hColumn

end Scope

namespace Expr

open Scope

variable {resolver : Resolver}
variable {cs : List Constant}

/-
  A comparison marks a constant on either side.  The column
  against which it is marked has no constants, so the constant
  is always the last.
-/
theorem Visits.numbers_comparison
    {op : BinaryOp}
    {left right : Expr}
    {p q : Part}
    {s t u : Scope}
    (hComparison : op.isComparison = true)
    (hLeft : Visits resolver left s p t)
    (hRight : Visits resolver right t q u)
    (hFirst : t.Numbers (cs ++ left.constants resolver false))
    (hSecond : u.Numbers (cs ++ left.constants resolver false
      ++ right.constants resolver false))
    (hStart : s.Numbers cs) :
    ((u.markAgainst p q).markAgainst q p).Numbers
      (cs ++ (Expr.binary op left right).constants resolver
        false) := by
  have hMarked : (u.markAgainst p q).Numbers
      (cs ++ left.constants resolver false
        ++ right.constants resolver
          (left.isTag resolver)) := by
    apply hSecond.markAgainst hLeft.role?_eq
      hRight.fits.literal
    intro x hLiteral
    rw [hLiteral] at hRight
    rw [hRight.eq_nextName, hFirst.nextName_eq]
  simp only [constants, hComparison, Bool.true_and]
  rw [← List.append_assoc]
  cases hTag : right.isTag resolver with
  | false =>
      have hOther : q.role? ≠ some .tag := by
        rw [hRight.role?_eq]
        intro hTagged
        rcases Option.map_eq_some_iff.mp hTagged with
          ⟨name, hMember, hRole⟩
        simp [isTag, hMember, hRole] at hTag
      rw [markAgainst_of_role? p hOther]
      exact hMarked
  | true =>
      rw [constants_of_isTag _ hTag, List.append_nil]
        at hMarked ⊢
      rw [← hTag]
      apply hMarked.markAgainst hRight.role?_eq
        hLeft.fits.literal
      intro x hLiteral
      rw [hLiteral] at hLeft
      rw [hLeft.eq_nextName, hStart.nextName_eq]

/-
  A list of expressions numbers its constants in order if each
  expression does.
-/
theorem VisitsAll.numbers_of
    {es : List Expr}
    {ps : List Part}
    {s u : Scope}
    (hEach : ∀ e ∈ es, ∀ p s t cs, s.Numbers cs →
      Visits resolver e s p t →
        t.Numbers (cs ++ e.constants resolver false))
    (hNumbers : s.Numbers cs)
    (hVisits : VisitsAll resolver es s ps u) :
    u.Numbers (cs ++ allConstants resolver es) := by
  induction es generalizing s ps cs with
  | nil =>
      cases hVisits with
      | nil =>
          rw [allConstants, List.append_nil]
          exact hNumbers
  | cons e es ih =>
      cases hVisits with
      | cons hFirst hOthers =>
          have hMiddle := hEach e List.mem_cons_self _ _ _ _
            hNumbers hFirst
          have hEnd := ih (fun e hMem =>
            hEach e (List.mem_cons_of_mem _ hMem)) hMiddle
            hOthers
          rw [allConstants, ← List.append_assoc]
          exact hEnd

/- A walk names the constants of its expression. -/
theorem Visits.numbers
    {e : Expr}
    {p : Part}
    {s u : Scope}
    (hNumbers : s.Numbers cs)
    (hVisits : Visits resolver e s p u) :
    u.Numbers (cs ++ e.constants resolver false) := by
  induction e generalizing s p u cs with
  | constant value =>
      cases hVisits with
      | constant =>
          rw [constants]
          exact hNumbers.bind value
  | member name =>
      cases hVisits with
      | member =>
          rw [constants, List.append_nil]
          exact hNumbers
  | index name key =>
      cases hVisits with
      | index =>
          rw [constants, List.append_nil]
          exact hNumbers
  | binary op left right ihLeft ihRight =>
      cases hVisits with
      | comparison hComparison hLeft hRight =>
          have hFirst := ihLeft hNumbers hLeft
          exact hLeft.numbers_comparison hComparison hRight
            hFirst (ihRight hFirst hRight) hNumbers
      | connective hOther _ hLeft hRight =>
          have hEnd := ihRight (ihLeft hNumbers hLeft) hRight
          rw [List.append_assoc] at hEnd
          simpa [constants, hOther] using hEnd
  | unary op operand ih =>
      cases hVisits with
      | convert hOperand =>
          rw [constants]
          exact ih hNumbers hOperand
  | call receiver method args ihReceiver ihArgs =>
      cases hVisits with
      | call _ hReceiver hArgs =>
          have hEnd := hArgs.numbers_of
            (fun arg hMem p s t cs => ihArgs arg hMem)
            (ihReceiver hNumbers hReceiver)
          rw [List.append_assoc] at hEnd
          rw [constants]
          exact hEnd.call _
  | parameter name => cases hVisits
  | conditional test ifTrue ifFalse _ _ _ => cases hVisits

/-
  The same of any list, since every walk numbers its
  constants.
-/
theorem VisitsAll.numbers
    {es : List Expr}
    {ps : List Part}
    {s u : Scope}
    (hNumbers : s.Numbers cs)
    (hVisits : VisitsAll resolver es s ps u) :
    u.Numbers (cs ++ allConstants resolver es) :=
  hVisits.numbers_of
    (fun _ _ _ _ _ _ hNumbers hEach => hEach.numbers hNumbers)
    hNumbers

end Expr

end TypedFlux

------------------------------------------------------------
-- Drafts Number the Constants
------------------------------------------------------------

namespace TypedFlux

/- Routing names nothing. -/
theorem Draft.Routes.options_eq
    {parts : List Part}
    {conditions : List String}
    {d d' : Draft}
    (hRoutes : Draft.Routes parts d conditions d') :
    d'.scope.options = d.scope.options := by
  rcases hRoutes.eq_narrow with ⟨events, hNarrow⟩
  rw [hNarrow]
  rfl

theorem Draft.scope_addConditions
    (d : Draft)
    (conditions : List String) :
    (d.addConditions conditions).scope = d.scope := by
  cases conditions with
  | nil => rfl
  | cons first others => rfl

namespace Drafting

open Draft TypedFlux.Expr

variable {resolver : Resolver}
variable {cs : List Constant}
variable {d d' : Draft}

/- A filter numbers the constants of its predicate. -/
theorem filter_numbers
    {predicate : Expr}
    {a : Unit}
    (hNumbers : d.scope.Numbers cs)
    (hFilter : filter resolver predicate d = (.ok a, d')) :
    d'.scope.Numbers
      (cs ++ predicate.constants resolver false) := by
  rcases filter_eq_ok.mp hFilter with
    ⟨parts, s, conditions, e, hVisits, hRoutes, rfl⟩
  have hWalked := hVisits.numbers hNumbers
  rw [allConstants_conjuncts] at hWalked
  rw [scope_addConditions]
  exact hRoutes.options_eq.trans hWalked

/- A key has one constant, which is its direction. -/
theorem orderBy_numbers
    {key : SortKey}
    {a : Unit}
    (hNumbers : d.scope.Numbers cs)
    (hOrder : orderBy resolver key d = (.ok a, d')) :
    d'.scope.Numbers (cs ++ [key.constant]) := by
  rcases orderBy_eq_ok.mp hOrder with
    ⟨role, column, s, hVisits, rfl⟩
  have hWalked := hVisits.numbers hNumbers
  rcases Option.map_eq_some_iff.mp hVisits.role?_eq.symm with
    ⟨name, hMember, _⟩
  rw [constants_of_member? false hMember, List.append_nil]
    at hWalked
  exact hWalked.bind _

/- A clause numbers its constants behind those so far. -/
theorem clause_numbers
    {c : BodyClause}
    (hNumbers : d.scope.Numbers cs)
    (hClause : clause resolver c d = (.ok PUnit.unit, d')) :
    d'.scope.Numbers (cs ++ c.constants resolver) := by
  cases c with
  | filter predicate => exact filter_numbers hNumbers hClause
  | order keys =>
      have hStep : ∀ (key : SortKey) (d : Draft)
          (cs : List Constant) (d' : Draft),
          d.scope.Numbers cs →
          orderBy resolver key d = (.ok PUnit.unit, d') →
            d'.scope.Numbers (cs ++ [key.constant]) :=
        fun _ _ _ _ => orderBy_numbers
      have hAll := Step.forM_follows
        (R := fun d cs => d.scope.Numbers cs) hStep hNumbers
        hClause
      rw [List.foldl_append_eq_append, ← List.flatMap_def]
        at hAll
      rw [BodyClause.constants, List.map_eq_flatMap]
      exact hAll

/- So does an operator. -/
theorem operator_numbers
    {op : ResultOperator}
    (hNumbers : d.scope.Numbers cs)
    (hOperator : operator op d = (.ok PUnit.unit, d')) :
    d'.scope.Numbers (cs ++ op.constants) := by
  cases operates_iff.mp hOperator with
  | take _ hConstant _ =>
      rw [ResultOperator.constants_eq rfl hConstant]
      exact hNumbers.bind _
  | skip _ hConstant _ =>
      rw [ResultOperator.constants_eq rfl hConstant]
      exact hNumbers.bind _
  | takeLast hConstant _ =>
      rw [ResultOperator.constants_eq rfl hConstant]
      exact hNumbers.bind _
  | any | count | longCount =>
      change d.scope.Numbers (cs ++ [])
      rw [List.append_nil]
      exact hNumbers

end Drafting

------------------------------------------------------------
-- The Options of a Query
------------------------------------------------------------

namespace Draft

/- A draft begins with its bucket and the earliest start. -/
theorem new_numbers
    (bucket : String) :
    (Draft.new bucket).scope.Numbers
      [{ value := .string bucket }, { value := .int 0 }] := by
  have hEmpty : Scope.Numbers {} [] := rfl
  exact (hEmpty.bind (.string bucket)).bind (.int 0)

/- A draft names the constants of its query. -/
theorem ofQuery_numbers
    {bucket : String}
    {resolver : Resolver}
    {q : Query}
    {d : Draft}
    (hDraft : Draft.ofQuery bucket resolver q = .ok d) :
    d.scope.Numbers (q.constants bucket resolver) := by
  rcases ofQuery_eq_ok.mp hDraft with ⟨e, hBody, hOperators⟩
  have hClause : ∀ (c : BodyClause) (d : Draft)
      (cs : List Constant) (d' : Draft), d.scope.Numbers cs →
      Drafting.clause resolver c d = (.ok PUnit.unit, d') →
        d'.scope.Numbers (cs ++ c.constants resolver) :=
    fun _ _ _ _ => Drafting.clause_numbers
  have hOperator : ∀ (op : ResultOperator) (d : Draft)
      (cs : List Constant) (d' : Draft), d.scope.Numbers cs →
      Drafting.operator op d = (.ok PUnit.unit, d') →
        d'.scope.Numbers (cs ++ op.constants) :=
    fun _ _ _ _ => Drafting.operator_numbers
  have hClauses := Step.forM_follows
    (R := fun d cs => d.scope.Numbers cs) hClause
    (new_numbers bucket) hBody
  have hAll := Step.forM_follows
    (R := fun d cs => d.scope.Numbers cs) hOperator
    hClauses hOperators
  simp only [List.foldl_append_eq_append, ← List.flatMap_def]
    at hAll
  exact hAll

/-
  The options of a script are the constants of its query, each
  under the name of its position and marked where it is compared
  with a tag.
-/
theorem statements_script
    (bucket : String)
    (resolver : Resolver)
    (q : Query)
    (d : Draft)
    (hDraft : Draft.ofQuery bucket resolver q = .ok d) :
    d.script.statements =
      (q.constants bucket resolver).mapIdx fun i c =>
        "option p" ++ Numeral.ofNat (i + 1) ++ " = "
          ++ (Literal.ofValue c.isTag c.value).text := by
  have hNumbers := ofQuery_numbers hDraft
  change d.scope.options.statements = _
  rw [hNumbers, Variables.statements_ofConstants]
  rfl

/- Constants on both sides of tags, below calls and in keys. -/
def deviceQuery : Query where
  entity := "device"
  body := [
    .filter (.binary .andAlso
      (.binary .orElse
        (.binary .equal (.constant (.int 7))
          (.unary .convert (.member "site")))
        (.binary .equal (.member "level") (.constant (.int 8))))
      (.unary .convert (.binary .notEqual
        (.call (.member "site") "Replace"
          [.constant (.string "a"), .constant (.bool true)])
        (.binary .lessThan (.member "site")
          (.unary .convert (.constant (.uint 9))))))),
    .order [⟨.member "site", .descending⟩],
    .filter (.binary .greaterThan (.member "at")
      (.index "k" (.int 1)))]
  operators := [.take (.constant (.int 3)), .count,
    .takeLast (.unary .convert (.constant (.uint 2)))]

/-
  A tag on either side makes a text of a number; below a call
  and in a key it does not.
-/
theorem statements_script_deviceQuery :
    ∃ d, Draft.ofQuery "b" deviceResolver deviceQuery = .ok d ∧
      d.script.statements =
        ["option p1 = \"b\"", "option p2 = 0",
          "option p3 = \"7\"", "option p4 = 8",
          "option p5 = \"a\"", "option p6 = true",
          "option p7 = \"9\"", "option p8 = true",
          "option p9 = 3", "option p10 = 2"] := by
  rcases (⟨_, rfl⟩ : ∃ d, Draft.ofQuery "b" deviceResolver
    deviceQuery = .ok d) with ⟨d, hDraft⟩
  refine ⟨d, hDraft, ?_⟩
  exact (statements_script "b" deviceResolver deviceQuery d
    hDraft).trans (by rfl)

end Draft

end TypedFlux
