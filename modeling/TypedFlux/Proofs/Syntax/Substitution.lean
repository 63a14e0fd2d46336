import TypedFlux.Proofs.Syntax.Printing
import TypedFlux.Syntax.Resolution

/-
  Names replaced in a query.

  A name that stands on its own can be replaced by another
  expression wherever it occurs.  If each name that occurs
  resolves like the expression in its place, and the range
  variable keeps its role, then the whole query resolves as
  before.  Bound names are a case of this: they could be
  written as literals.

  Key definitions include:
    * `Alike`
    * `Node.replace`, `Comprehension.replace`
    * `Node.names`, `Comprehension.names`
    * `Node.FaithfulAt`, `Node.Faithful`
    * `Bindings.literal`

  Key theorems include:
    * `Node.memberOf?_replace`
    * `Node.resolve_replace`
    * `Comprehension.resolve_redeclare`
    * `Comprehension.resolve_replace`
    * `Comprehension.resolve_literals`
-/

------------------------------------------------------------
-- Outcomes
------------------------------------------------------------

namespace TypedFlux

/- Two errors are the same, but for the cause of a parse error. -/
def QueryError.Alike : QueryError → QueryError → Prop
  | .parse _, .parse _ => True
  | e, e' => e = e'

/- Two outcomes are the same, but for the cause of a parse error. -/
def Alike
    {α : Type} :
    Except QueryError α → Except QueryError α → Prop
  | .ok a, .ok b => a = b
  | .error e, .error e' => e.Alike e'
  | _, _ => False

namespace Alike

variable {α β : Type}

theorem refl
    (x : Except QueryError α) :
    Alike x x := by
  cases x with
  | ok a => exact Eq.refl a
  | error e => cases e <;> trivial

/- What follows alike outcomes is alike if it is for each result. -/
theorem bind
    {x y : Except QueryError α}
    {f g : α → Except QueryError β}
    (hFirst : Alike x y)
    (hNext : ∀ a, Alike (f a) (g a)) :
    Alike (x >>= f) (y >>= g) := by
  cases x with
  | ok a =>
      cases y with
      | ok b =>
          have hSame : a = b := hFirst
          subst hSame
          exact hNext a
      | error e => exact absurd hFirst not_false
  | error e =>
      cases y with
      | ok b => exact absurd hFirst not_false
      | error e' => exact hFirst

/- Lists are taken up alike if their items are. -/
theorem mapM
    {f g : α → Except QueryError β}
    {change : α → α}
    {items : List α}
    (hItem : ∀ a ∈ items, Alike (f (change a)) (g a)) :
    Alike ((items.map change).mapM f) (items.mapM g) := by
  induction items with
  | nil => exact refl _
  | cons a rest ih =>
      rw [List.map_cons, List.mapM_cons, List.mapM_cons]
      refine (hItem a List.mem_cons_self).bind fun first => ?_
      have hRest := ih fun b hMem =>
        hItem b (List.mem_cons_of_mem a hMem)
      exact hRest.bind fun others => refl _

end Alike

end TypedFlux

------------------------------------------------------------
-- Replaced Names
------------------------------------------------------------

namespace TypedFlux

namespace Node

mutual

/- Put an expression in the place of every name. -/
def replace (f : String → Node) : Node → Node
  | .literal v => .literal v
  | .ident x => f x
  | .field base member => .field (replace f base) member
  | .index base key => .index (replace f base) (replace f key)
  | .call receiver method args =>
      .call (replace f receiver) method (replaceAll f args)
  | .binary op left right =>
      .binary op (replace f left) (replace f right)
  | .not operand => .not (replace f operand)
  | .negate operand => .negate (replace f operand)
  | .array items => .array (replaceAll f items)

/- Replace the names in a list of expressions. -/
def replaceAll (f : String → Node) : List Node → List Node
  | [] => []
  | n :: rest => replace f n :: replaceAll f rest

end

mutual

/- The names that stand on their own, at any depth. -/
def names : Node → List String
  | .literal _ => []
  | .ident x => [x]
  | .field base _ => names base
  | .index base key => names base ++ names key
  | .call receiver _ args => names receiver ++ namesAll args
  | .binary _ left right => names left ++ names right
  | .not operand | .negate operand => names operand
  | .array items => namesAll items

/- The names of a list of expressions. -/
def namesAll : List Node → List String
  | [] => []
  | n :: rest => names n ++ namesAll rest

end

/- A name of one node is a name of the list. -/
theorem mem_namesAll
    {x : String}
    {n : Node}
    {ns : List Node}
    (hMem : n ∈ ns)
    (hName : x ∈ n.names) :
    x ∈ namesAll ns := by
  induction hMem with
  | head => exact List.mem_append_left _ hName
  | tail _ _ ih => exact List.mem_append_right _ ih

/-
  A name resolves like the expression in its place.  Only the
  range variable becomes the range variable, and no name
  becomes a member of it.
-/
structure FaithfulAt
    (f : String → Node)
    (variableName : String)
    (bindings : Bindings)
    (variableName' : String)
    (bindings' : Bindings)
    (x : String) : Prop where
  meaning :
    Alike ((f x).resolve variableName' bindings')
      ((Node.ident x).resolve variableName bindings)
  rangeVariable : f x = .ident variableName' ↔ x = variableName
  memberless : memberOf? variableName' (f x) = none

/- Every name has a faithful expression in its place. -/
def Faithful
    (f : String → Node)
    (variableName : String)
    (bindings : Bindings)
    (variableName' : String)
    (bindings' : Bindings) : Prop :=
  ∀ x, FaithfulAt f variableName bindings
    variableName' bindings' x

variable {f : String → Node}
variable {variableName variableName' : String}
variable {bindings bindings' : Bindings}

/- The same members are named as before. -/
theorem memberOf?_replace
    (n : Node)
    (hFaithful : ∀ x ∈ n.names,
      FaithfulAt f variableName bindings
        variableName' bindings' x) :
    memberOf? variableName' (n.replace f) =
      memberOf? variableName n := by
  cases n with
  | ident x =>
      rw [replace, (hFaithful x List.mem_cons_self).memberless]
      rfl
  | field base member =>
      cases base with
      | ident x =>
          have hName := hFaithful x List.mem_cons_self
          rw [replace, replace]
          by_cases hVariable : x = variableName
          · rw [hName.rangeVariable.mpr hVariable]
            simp [memberOf?, hVariable]
          · have hOther : f x ≠ .ident variableName' :=
              fun hSame =>
                hVariable (hName.rangeVariable.mp hSame)
            cases hPlace : f x with
            | ident y =>
                have hDiffers : y ≠ variableName' := by
                  rintro rfl
                  exact hOther hPlace
                simp [memberOf?, hVariable, hDiffers]
            | _ => simp [memberOf?, hVariable]
      | _ => simp [replace, memberOf?]
  | _ => simp [replace, memberOf?]

/- What holds of each node holds of a list of them. -/
theorem resolveAll_replace
    {ns : List Node}
    (hEach : ∀ n ∈ ns,
      Alike ((n.replace f).resolve variableName' bindings')
        (n.resolve variableName bindings)) :
    Alike
      (resolveAll variableName' bindings' (replaceAll f ns))
      (resolveAll variableName bindings ns) := by
  induction ns with
  | nil => exact Alike.refl _
  | cons n rest ih =>
      rw [replaceAll, resolveAll, resolveAll]
      refine (hEach n List.mem_cons_self).bind fun first => ?_
      have hRest := ih fun m hMem =>
        hEach m (List.mem_cons_of_mem n hMem)
      exact hRest.bind fun others => Alike.refl _

theorem resolveElements_replace
    {ns : List Node}
    (hEach : ∀ n ∈ ns,
      Alike ((n.replace f).resolve variableName' bindings')
        (n.resolve variableName bindings)) :
    Alike
      (resolveElements variableName' bindings'
        (replaceAll f ns))
      (resolveElements variableName bindings ns) := by
  induction ns with
  | nil => exact Alike.refl _
  | cons n rest ih =>
      rw [replaceAll, resolveElements, resolveElements]
      refine (hEach n List.mem_cons_self).bind fun e => ?_
      have hRest := ih fun m hMem =>
        hEach m (List.mem_cons_of_mem n hMem)
      -- only a constant goes on to the elements behind it
      cases e with
      | constant v => exact hRest.bind fun vs => Alike.refl _
      | _ => exact Alike.refl _

/- An expression resolves as before. -/
theorem resolve_replace
    (n : Node)
    (hFaithful : ∀ x ∈ n.names,
      FaithfulAt f variableName bindings
        variableName' bindings' x) :
    Alike ((n.replace f).resolve variableName' bindings')
      (n.resolve variableName bindings) := by
  induction n with
  | literal v => exact Alike.refl _
  | ident x => exact (hFaithful x List.mem_cons_self).meaning
  | field base member _ =>
      have hMember := memberOf?_replace _ hFaithful
      rw [replace] at hMember ⊢
      rw [resolve, resolve, hMember]
      -- the error names the base, which has changed
      cases memberOf? variableName (.field base member) with
      | some m => exact Alike.refl _
      | none => trivial
  | index base key _ ihKey =>
      rw [names, List.forall_mem_append] at hFaithful
      rw [replace, resolve, resolve,
        memberOf?_replace base hFaithful.1]
      cases memberOf? variableName base with
      | some m =>
          exact (ihKey hFaithful.2).bind fun e => Alike.refl _
      | none => trivial
  | call receiver method args ihReceiver ihArgs =>
      rw [names, List.forall_mem_append] at hFaithful
      rw [replace, resolve, resolve]
      refine (ihReceiver hFaithful.1).bind fun first => ?_
      have hArgs := resolveAll_replace fun n hMem =>
        ihArgs n hMem fun x hName =>
          hFaithful.2 x (mem_namesAll hMem hName)
      exact hArgs.bind fun others => Alike.refl _
  | binary op left right ihLeft ihRight =>
      rw [names, List.forall_mem_append] at hFaithful
      rw [replace, resolve, resolve]
      refine (ihLeft hFaithful.1).bind fun first => ?_
      exact (ihRight hFaithful.2).bind fun second => Alike.refl _
  | not operand ih =>
      rw [replace, resolve, resolve]
      exact (ih hFaithful).bind fun e => Alike.refl _
  | negate operand ih =>
      rw [replace, resolve, resolve]
      exact (ih hFaithful).bind fun e => Alike.refl _
  | array items ih =>
      rw [replace, resolve, resolve]
      have hItems := resolveElements_replace fun n hMem =>
        ih n hMem fun x hName =>
          hFaithful x (mem_namesAll hMem hName)
      exact hItems.bind fun values => Alike.refl _

end Node

end TypedFlux

------------------------------------------------------------
-- Comprehensions
------------------------------------------------------------

namespace TypedFlux

/- Replace the names of a clause. -/
def Clause.replace (f : String → Node) : Clause → Clause
  | .filter predicate => .filter (predicate.replace f)
  | .order keys =>
      .order (keys.map fun key => (key.1.replace f, key.2))

/- Replace the names of a call behind the selection. -/
def OperatorCall.replace
    (f : String → Node)
    (call : OperatorCall) : OperatorCall :=
  { call with args := Node.replaceAll f call.args }

/-
  Replace the names in all expressions of a query.  What the
  query declares keeps its name.
-/
def Comprehension.replace
    (f : String → Node)
    (c : Comprehension) : Comprehension :=
  { c with
    clauses := c.clauses.map (Clause.replace f)
    operators := c.operators.map (OperatorCall.replace f) }

/- The names in the expressions of a clause. -/
def Clause.names : Clause → List String
  | .filter predicate => predicate.names
  | .order keys => keys.flatMap fun key => key.1.names

/- The names in all expressions of a query. -/
def Comprehension.names (c : Comprehension) : List String :=
  c.clauses.flatMap Clause.names ++
    c.operators.flatMap fun call => Node.namesAll call.args

variable {f : String → Node}
variable {variableName variableName' : String}
variable {bindings bindings' : Bindings}

/- Keys of an order keep their directions. -/
theorem resolveKeys_replace
    {keys : List (Node × Direction)}
    (hFaithful : ∀ key ∈ keys, ∀ x ∈ key.1.names,
      Node.FaithfulAt f variableName bindings
        variableName' bindings' x) :
    Alike
      (resolveKeys variableName' bindings'
        (keys.map fun key => (key.1.replace f, key.2)))
      (resolveKeys variableName bindings keys) := by
  induction keys with
  | nil => exact Alike.refl _
  | cons key rest ih =>
      rcases key with ⟨n, direction⟩
      rw [List.forall_mem_cons] at hFaithful
      rw [List.map_cons, resolveKeys, resolveKeys]
      refine (n.resolve_replace hFaithful.1).bind fun e => ?_
      exact (ih hFaithful.2).bind fun others => Alike.refl _

/-
  Clauses are resolved alike, with names replaced in all their
  nodes.
-/
theorem Clause.resolve_replace
    (c : Clause)
    (hFaithful : ∀ x ∈ c.names,
      Node.FaithfulAt f variableName bindings
        variableName' bindings' x) :
    Alike ((c.replace f).resolve variableName' bindings')
      (c.resolve variableName bindings) := by
  cases c with
  | filter predicate =>
      exact (predicate.resolve_replace hFaithful).bind
        fun e => Alike.refl _
  | order keys =>
      have hKeys := resolveKeys_replace fun key hMem x hName =>
        hFaithful x (List.mem_flatMap.mpr ⟨key, hMem, hName⟩)
      exact hKeys.bind fun sorted => Alike.refl _

/- So are the calls of operators. -/
theorem OperatorCall.resolve_replace
    (registry : Registry)
    (call : OperatorCall)
    (hFaithful : ∀ x ∈ Node.namesAll call.args,
      Node.FaithfulAt f variableName bindings
        variableName' bindings' x) :
    Alike
      ((call.replace f).resolve registry variableName' bindings')
      (call.resolve registry variableName bindings) := by
  have hArgs : Alike
      (Node.resolveAll variableName' bindings'
        (Node.replaceAll f call.args))
      (Node.resolveAll variableName bindings call.args) :=
    Node.resolveAll_replace fun n hMem =>
      n.resolve_replace fun x hName =>
        hFaithful x (Node.mem_namesAll hMem hName)
  exact hArgs.bind fun args => Alike.refl _

/-
  A query resolves as before, also if its range variable has
  another name, as long as it is selected as before.
-/
theorem Comprehension.resolve_redeclare
    (registry : Registry)
    (c : Comprehension)
    (selected' : String)
    (hSelected : selected' = variableName' ↔
      c.selected = c.variableName)
    (hFaithful : ∀ x ∈ c.names,
      Node.FaithfulAt f c.variableName bindings
        variableName' bindings' x) :
    Alike
      (Comprehension.resolve registry bindings'
        { c.replace f with
          variableName := variableName'
          selected := selected' })
      (c.resolve registry bindings) := by
  rw [names, List.forall_mem_append] at hFaithful
  rcases hFaithful with ⟨hBody, hCalls⟩
  unfold Comprehension.resolve Comprehension.replace
  by_cases hSame : c.selected = c.variableName
  · simp only [ne_eq, hSelected, hSame, not_true_eq_false,
      if_false]
    have hClauses := Alike.mapM fun clause hMem =>
      Clause.resolve_replace clause fun x hName =>
        hBody x (List.mem_flatMap.mpr ⟨clause, hMem, hName⟩)
    refine hClauses.bind fun body => ?_
    have hOperators := Alike.mapM fun call hMem =>
      OperatorCall.resolve_replace registry call
        fun x hName => hCalls x
          (List.mem_flatMap.mpr ⟨call, hMem, hName⟩)
    exact hOperators.bind fun operators => Alike.refl _
  · simp only [ne_eq, hSelected, hSame, not_false_eq_true,
      if_true]
    trivial

/- A query resolves as before. -/
theorem Comprehension.resolve_replace
    (registry : Registry)
    (c : Comprehension)
    (hFaithful : Node.Faithful f c.variableName bindings
      c.variableName bindings') :
    Alike ((c.replace f).resolve registry bindings')
      (c.resolve registry bindings) :=
  c.resolve_redeclare registry c.selected Iff.rfl
    fun x _ => hFaithful x

------------------------------------------------------------
-- Bound Names as Literals
------------------------------------------------------------

/-
  The literal of a bound name.  Unbound names stay, and so
  does the range variable, which no constant can stand for.
-/
def Bindings.literal
    (bindings : Bindings)
    (variableName x : String) : Node :=
  if x = variableName then .ident x
  else
    match bindings.get? x with
    | some v => .literal v
    | none => .ident x

/- A name that is bound may be replaced by its literal. -/
theorem Bindings.faithful_literal
    (bindings : Bindings)
    (variableName : String) :
    Node.Faithful (bindings.literal variableName)
      variableName bindings variableName [] := by
  intro x
  constructor
  case meaning =>
    unfold literal
    split
    · next hVariable =>
        simp only [Node.resolve, if_pos hVariable]
        exact Alike.refl _
    · next hOther =>
        cases hBound : bindings.get? x with
        | some v =>
            simp only [Node.resolve, if_neg hOther, hBound]
            exact Alike.refl _
        | none =>
            simp only [Node.resolve, if_neg hOther, hBound]
            exact Alike.refl _
  case rangeVariable =>
    unfold literal
    split
    · next hVariable => simp [hVariable]
    · next hOther =>
        cases bindings.get? x with
        | some v => simp [hOther]
        | none => simp [hOther]
  case memberless =>
    unfold literal
    split
    · rfl
    · cases bindings.get? x <;> rfl

/-
  Binding names is writing literals: a query with bound names
  has the outcome of the query that has their literals in
  their places and no name bound.
-/
theorem Comprehension.resolve_literals
    (registry : Registry)
    (bindings : Bindings)
    (c : Comprehension) :
    Alike
      ((c.replace
        (bindings.literal c.variableName)).resolve registry [])
      (c.resolve registry bindings) :=
  c.resolve_replace registry
    (bindings.faithful_literal c.variableName)

end TypedFlux
