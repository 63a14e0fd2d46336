import TypedFlux.Proofs.Draft.Invariant
import TypedFlux.Proofs.Flux.Terms

/-
  What a filter means, read back from its text.

  An expression has a meaning for a row, and so has a term of a
  filter.  The text of an expression is read as a term that
  means the same.

  Key definitions include:
    * `Judgement`
    * `Expr.reading`, `Flux.Term.meaning`
    * `Expr.ReadsAs`

  Key theorems include:
    * `Variables.get?_ofConstants`
    * `Expr.Expressible.reads`
-/

------------------------------------------------------------
-- Judgements
------------------------------------------------------------

namespace TypedFlux

/-
  What holds for a row.  A constant that is compared with a tag
  may be understood in another way than elsewhere.  A literal of
  a script stands for a cell, an instant has a cell, and cells
  have a place on the scale of time.
-/
structure Judgement
    (D τ : Type)
    extends Interpretation D where
  tagged : Value → D
  literal : String → D
  Holds : D → Prop
  holds_conj : ∀ a b, Holds (conj a b) ↔ Holds a ∧ Holds b
  instant : τ → D
  scale : D → τ

namespace Judgement

variable {D τ : Type}

/- A constant as it is declared. -/
def ofConstant
    (M : Judgement D τ)
    (isTag : Bool)
    (value : Value) : D :=
  if isTag then M.tagged value else M.constant value

/- What variables stand for, by their names. -/
def options
    (M : Judgement D τ)
    (vs : Variables)
    (name : String) : Option D :=
  (vs.get? name).map fun v => M.ofConstant v.isTag v.value

end Judgement

------------------------------------------------------------
-- Readings
------------------------------------------------------------

variable {D τ : Type}

mutual

/-
  What an expression means for a row; `isTag` if the expression
  is compared with a tag.
-/
def Expr.reading
    (M : Judgement D τ)
    (resolver : Resolver)
    (row : String → D)
    (isTag : Bool) : Expr → Option D
  | .constant value => some (M.ofConstant isTag value)
  | .member name => some (row (resolver.cell name))
  | .index name key => some (row (resolver.indexed name key))
  | .unary .convert operand =>
      Expr.reading M resolver row isTag operand
  | .binary op left right => do
      let operation ← M.operation? op
      let a ← Expr.reading M resolver row
        (op.isComparison && right.isTag resolver) left
      let b ← Expr.reading M resolver row
        (op.isComparison && left.isTag resolver) right
      return operation a b
  | .call receiver method args => do
      let function ← Expr.function? method args
      let d ← Expr.reading M resolver row false receiver
      let ds ← Expr.readings M resolver row args
      return M.function function (d :: ds)
  | _ => none

/- What a list of expressions means. -/
def Expr.readings
    (M : Judgement D τ)
    (resolver : Resolver)
    (row : String → D) : List Expr → Option (List D)
  | [] => some []
  | e :: rest => do
      let d ← Expr.reading M resolver row false e
      let ds ← Expr.readings M resolver row rest
      return d :: ds

end

mutual

/- What a term of a filter means for a row. -/
def Flux.Term.meaning
    (I : Interpretation D)
    (options : String → Option D)
    (row : String → D) : Flux.Term → Option D
  | .name x => options x
  | .cell column => some (row column)
  | .operation op left right => do
      let operation ← I.operation? op
      let a ← Flux.Term.meaning I options row left
      let b ← Flux.Term.meaning I options row right
      return operation a b
  | .call function args => do
      let ds ← Flux.Term.meanings I options row args
      return I.function function ds

/- What a list of terms means. -/
def Flux.Term.meanings
    (I : Interpretation D)
    (options : String → Option D)
    (row : String → D) : List Flux.Term → Option (List D)
  | [] => some []
  | t :: rest => do
      let d ← Flux.Term.meaning I options row t
      let ds ← Flux.Term.meanings I options row rest
      return d :: ds

end

end TypedFlux

------------------------------------------------------------
-- Filters Mean What Predicates Mean
------------------------------------------------------------

namespace TypedFlux

variable {D τ : Type}
variable {M : Judgement D τ}
variable {resolver : Resolver}
variable {row : String → D}

namespace Variables

/- The variable of a constant is found by its position. -/
theorem get?_ofConstants
    {cs : List Constant}
    {c : Constant}
    {n : Nat}
    (hConstant : cs[n]? = some c) :
    (ofConstants cs).get? (nameAfter n) =
      some ⟨nameAfter n, c.value, c.isTag⟩ := by
  rcases List.getElem?_eq_some_iff.mp hConstant with
    ⟨hLength, rfl⟩
  refine List.find?_eq_some_iff_getElem.mpr
    ⟨decide_eq_true rfl, n, by simpa using hLength, ?_, ?_⟩
  · simp [ofConstants]
  · intro j hEarlier
    have hOther : nameAfter j ≠ nameAfter n := by
      intro hSame
      have hEq := nameAfter_injective hSame
      omega
    simpa [ofConstants] using hOther

theorem get?_ofConstants_of_begins
    {cs : List Constant}
    {c : Constant}
    {n : Nat}
    (hBegins : [c] <+: cs.drop n) :
    (ofConstants cs).get? (nameAfter n) =
      some ⟨nameAfter n, c.value, c.isTag⟩ := by
  rcases hBegins with ⟨rest, hRest⟩
  apply get?_ofConstants
  rw [← List.head?_drop, ← hRest]
  rfl

end Variables

/- Two operators that are written the same mean the same. -/
theorem Interpretation.operation?_plain
    (I : Interpretation D)
    (op : BinaryOp) :
    I.operation? (Flux.plain op) = I.operation? op := by
  cases op <;> rfl

/- A text and an expression mean the same. -/
def Expr.ReadsAs
    (M : Judgement D τ)
    (resolver : Resolver)
    (row : String → D)
    (cs : List Constant)
    (isTag : Bool)
    (e : Expr)
    (text : String) : Prop :=
  ∃ t d, Flux.Reads text t ∧
    t.meaning M.toInterpretation
      (M.options (Variables.ofConstants cs)) row = some d ∧
    e.reading M resolver row isTag = some d

namespace Expr

variable {cs : List Constant}

theorem ReadsAs.constant
    {value : Value}
    {isTag : Bool}
    {n : Nat}
    (hBegins : [⟨value, isTag⟩] <+: cs.drop n) :
    ReadsAs M resolver row cs isTag (.constant value)
      (Variables.nameAfter n) := by
  refine ⟨_, _, Flux.reads_name n, ?_, by rw [reading]⟩
  rw [Flux.Term.meaning, Judgement.options,
    Variables.get?_ofConstants_of_begins hBegins]
  rfl

theorem ReadsAs.binary
    {op : BinaryOp}
    {left right : Expr}
    {leftText rightText : String}
    {isTag : Bool}
    (hToken : op.token? ≠ none)
    (hLeft : ReadsAs M resolver row cs
      (op.isComparison && right.isTag resolver) left leftText)
    (hRight : ReadsAs M resolver row cs
      (op.isComparison && left.isTag resolver) right rightText) :
    ReadsAs M resolver row cs isTag (.binary op left right)
      (Part.operation leftText (op.token?.getD "") rightText) := by
  rcases operation?_of_token? M.toInterpretation hToken with
    ⟨operation, hOperation⟩
  rcases hLeft with ⟨l, a, hReadsLeft, hTermLeft, hLeft⟩
  rcases hRight with ⟨r, b, hReadsRight, hTermRight, hRight⟩
  refine ⟨.operation (Flux.plain op) l r, operation a b,
    Flux.reads_operation hToken hReadsLeft hReadsRight, ?_, ?_⟩
  · simp [Flux.Term.meaning, Interpretation.operation?_plain,
      hOperation, hTermLeft, hTermRight]
  · simp [reading, hOperation, hLeft, hRight]

/- Constants in a row begin one behind the other. -/
theorem begins_append
    {as bs : List Constant}
    {n m : Nat}
    (hBegins : as ++ bs <+: cs.drop n)
    (hLength : as.length = m) :
    as <+: cs.drop n ∧ bs <+: cs.drop (n + m) := by
  rcases hBegins with ⟨rest, hRest⟩
  constructor
  · exact ⟨bs ++ rest, by rw [← hRest, List.append_assoc]⟩
  · refine ⟨rest, ?_⟩
    rw [← List.drop_drop, ← hRest, ← hLength,
      List.append_assoc, List.drop_left]

/- The same of a list of expressions, one after the other. -/
theorem readsAs_all
    {es : List Expr}
    {n : Nat}
    (hEach : ∀ e ∈ es, ∀ isTag n,
      e.constants resolver isTag <+: cs.drop n →
        ReadsAs M resolver row cs isTag e (e.flux resolver n))
    (hBegins : allConstants resolver es <+: cs.drop n) :
    ∃ ts ds,
      List.Forall₂ Flux.Reads (fluxAll resolver n es) ts ∧
      Flux.Term.meanings M.toInterpretation
        (M.options (Variables.ofConstants cs)) row ts = some ds ∧
      readings M resolver row es = some ds := by
  induction es generalizing n with
  | nil =>
      rw [fluxAll]
      exact ⟨[], [], .nil, rfl, rfl⟩
  | cons e es ih =>
      rw [allConstants] at hBegins
      rcases begins_append hBegins rfl with ⟨hFirst, hOthers⟩
      rcases hEach e List.mem_cons_self false n hFirst with
        ⟨t, d, hReads, hTerm, hExpr⟩
      rcases ih (fun e hMem => hEach e (.tail _ hMem)) hOthers
        with ⟨ts, ds, hAllReads, hTerms, hExprs⟩
      rw [fluxAll]
      refine ⟨t :: ts, d :: ds, .cons hReads hAllReads, ?_, ?_⟩
      · simp [Flux.Term.meanings, hTerm, hTerms]
      · simp [readings, hExpr, hExprs]

theorem ReadsAs.call
    {receiver : Expr}
    {method : String}
    {args : List Expr}
    {function : StringFunction}
    {isTag : Bool}
    {n m : Nat}
    (hFunction : function? method args = some function)
    (hReceiver : ReadsAs M resolver row cs false receiver
      (receiver.flux resolver n))
    (hArgs : ∃ ts ds,
      List.Forall₂ Flux.Reads (fluxAll resolver m args) ts ∧
      Flux.Term.meanings M.toInterpretation
        (M.options (Variables.ofConstants cs)) row ts = some ds ∧
      readings M resolver row args = some ds) :
    ReadsAs M resolver row cs isTag (.call receiver method args)
      (function.fluxName ++ "("
        ++ ", ".intercalate (List.zipWith Flux.argument
          function.parameters
          (receiver.flux resolver n :: fluxAll resolver m args))
        ++ ")") := by
  rcases hReceiver with ⟨t, d, hReads, hTerm, hExpr⟩
  rcases hArgs with ⟨ts, ds, hAllReads, hTerms, hExprs⟩
  have hLength : function.parameters.length =
      (receiver.flux resolver n
        :: fluxAll resolver m args).length := by
    rw [List.length_cons, length_fluxAll]
    exact (function?_eq_some.mp hFunction).2
  refine ⟨.call function (t :: ts), M.function function (d :: ds),
    Flux.reads_call function (.cons hReads hAllReads) hLength,
    ?_, ?_⟩
  · simp [Flux.Term.meaning, Flux.Term.meanings, hTerm, hTerms]
  · simp [reading, hFunction, hExpr, hExprs]

/- What can be expressed is read back with its meaning. -/
theorem Expressible.reads
    {e : Expr}
    (hExpressible : e.Expressible)
    (isTag : Bool)
    (n : Nat)
    (hBegins : e.constants resolver isTag <+: cs.drop n) :
    ReadsAs M resolver row cs isTag e (e.flux resolver n) := by
  induction hExpressible generalizing isTag n with
  | constant value =>
      rw [constants] at hBegins
      rw [flux]
      exact .constant hBegins
  | member name | index name key =>
      rw [flux]
      exact ⟨_, _, Flux.reads_cell _, rfl, rfl⟩
  | convert hOperand ih =>
      rw [constants] at hBegins
      rw [flux]
      rcases ih isTag n hBegins with
        ⟨t, d, hReads, hTerm, hExpr⟩
      exact ⟨t, d, hReads, hTerm, by rw [reading, hExpr]⟩
  | @binary op left right hOp hLeft hRight ihLeft ihRight =>
      rw [constants] at hBegins
      rcases begins_append hBegins (left.length_constants _) with
        ⟨hFirst, hSecond⟩
      rw [flux]
      exact .binary (op.token?_ne_none.mpr hOp)
        (ihLeft _ n hFirst) (ihRight _ _ hSecond)
  | @call receiver method args function hMethod hLength hReceiver
      hArgs ihReceiver ihArgs =>
      have hFunction := function?_eq_some.mpr ⟨hMethod, hLength⟩
      rw [constants] at hBegins
      rcases begins_append hBegins rfl with ⟨hFirst, hOthers⟩
      rw [flux, hFunction]
      exact .call hFunction (ihReceiver false n hFirst)
        (readsAs_all ihArgs hOthers)

end Expr

end TypedFlux
