import TypedFlux.Proofs.Draft.Meaning
import TypedFlux.Proofs.Draft.Numbering

/-
  Conditions and bounds, from the expressions alone.

  The text of a part and the bound that it sets do not depend
  on the walk that found it, but for the number of constants in
  front.  Every part that a walk finds has a text.

  Key definitions include:
    * `Expr.flux`
    * `Expr.timeBound?`, `Expr.bounds`
    * `Pipeline.setRange`

  Key theorems include:
    * `Expr.Visits.hasText`
    * `Expr.Visits.timeBound?_eq`
    * `Expr.Visits.restrict_eq`
-/

------------------------------------------------------------
-- Texts of Conditions
------------------------------------------------------------

namespace TypedFlux

namespace Expr

mutual

/-
  The text of an expression behind `n` constants.  What a
  script cannot express has none.
-/
def flux
    (resolver : Resolver)
    (n : Nat) : Expr → String
  | .constant _ => Variables.nameAfter n
  | .member name => Part.accessor (resolver.cell name)
  | .index name key =>
      Part.accessor (resolver.indexed name key)
  | .unary .convert operand => flux resolver n operand
  | .binary op left right =>
      Part.operation (flux resolver n left)
        (op.token?.getD "")
        (flux resolver
          (n + (left.constants resolver false).length) right)
  | .call receiver method args =>
      match function? method args with
      | none => ""
      | some function =>
          let texts := flux resolver n receiver
            :: fluxAll resolver
              (n + (receiver.constants resolver false).length)
              args
          function.fluxName ++ "("
            ++ ", ".intercalate (List.zipWith
              (fun parameter text => parameter ++ ": " ++ text)
              function.parameters texts)
            ++ ")"
  | _ => ""

/- The texts of a list of expressions behind `n` constants. -/
def fluxAll
    (resolver : Resolver)
    (n : Nat) : List Expr → List String
  | [] => []
  | e :: rest =>
      flux resolver n e
        :: fluxAll resolver
          (n + (e.constants resolver false).length) rest

end

end Expr

namespace Part

/- A part has this text. -/
def HasText
    (p : Part)
    (text : String) : Prop :=
  p.text = .ok text

/- Operations are written from their operands. -/
theorem HasText.binary
    {op : BinaryOp}
    {p q : Part}
    {left right : String}
    (hToken : op.token? ≠ none)
    (hLeft : p.HasText left)
    (hRight : q.HasText right) :
    HasText (.binary op p q)
      (operation left (op.token?.getD "") right) := by
  rcases Option.ne_none_iff_exists'.mp hToken with
    ⟨token, hToken⟩
  unfold HasText at *
  simp only [text, hToken, hLeft, hRight]
  rfl

/- A bound reads like the comparison of the time with it. -/
theorem HasText.comparison
    {op : BinaryOp}
    {p q : Part}
    {text : String}
    (hLeft : p.isTimeColumn = true →
      p = .column .timestamp "_time")
    (hRight : q.isTimeColumn = true →
      q = .column .timestamp "_time")
    (hText : HasText (.binary op p q) text) :
    HasText (Part.comparison op p q) text := by
  unfold Part.comparison
  split
  · next hBound =>
      simp only [Bool.and_eq_true] at hBound
      rw [hLeft hBound.1.1] at hText
      exact hText
  · split
    · next hBound =>
        simp only [Bool.and_eq_true] at hBound
        rw [hRight hBound.1.2] at hText
        exact hText
    · exact hText

/- Each argument has its parameter in front. -/
theorem argTexts_eq_ok
    {parts : List Part}
    {texts : List String}
    (parameters : List String)
    (hTexts : parts.map Part.text = texts.map .ok) :
    argTexts parameters parts =
      .ok (List.zipWith
        (fun parameter text => parameter ++ ": " ++ text)
        parameters texts) := by
  induction parts generalizing parameters texts with
  | nil =>
      cases List.map_eq_nil_iff.mp hTexts.symm
      cases parameters with
      | nil => rfl
      | cons _ _ => rfl
  | cons p parts ih =>
      cases texts with
      | nil => cases hTexts
      | cons first texts =>
          rw [List.map_cons, List.map_cons,
            List.cons.injEq] at hTexts
          cases parameters with
          | nil => rfl
          | cons parameter parameters =>
              simp only [argTexts, hTexts.1,
                ih parameters hTexts.2]
              rfl

theorem HasText.call
    {parts : List Part}
    {texts : List String}
    (function : StringFunction)
    (hTexts : parts.map Part.text = texts.map .ok) :
    HasText (.call function parts)
      (function.fluxName ++ "("
        ++ ", ".intercalate (List.zipWith
          (fun parameter text => parameter ++ ": " ++ text)
          function.parameters texts)
        ++ ")") := by
  unfold HasText
  simp only [text, argTexts_eq_ok function.parameters hTexts]
  rfl

end Part

namespace Expr

variable {resolver : Resolver}
variable {cs : List Constant}

theorem VisitsAll.hasTexts_of
    {es : List Expr}
    {ps : List Part}
    {s u : Scope}
    (hEach : ∀ e ∈ es, ∀ p s t cs, s.Numbers cs →
      Visits resolver e s p t →
        p.HasText (e.flux resolver cs.length))
    (hNumbers : s.Numbers cs)
    (hVisits : VisitsAll resolver es s ps u) :
    ps.map Part.text =
      (fluxAll resolver cs.length es).map .ok := by
  induction es generalizing s ps cs with
  | nil =>
      cases hVisits with
      | nil =>
          rw [fluxAll]
          rfl
  | cons e es ih =>
      cases hVisits with
      | cons hFirst hOthers =>
          have hHead := hEach e List.mem_cons_self _ _ _ _
            hNumbers hFirst
          have hRest := ih (fun e hMem =>
            hEach e (List.mem_cons_of_mem _ hMem))
            (hFirst.numbers hNumbers) hOthers
          rw [List.length_append] at hRest
          rw [fluxAll, List.map_cons, List.map_cons, hRest,
            hHead]

/- A part has the text of its expression. -/
theorem Visits.hasText
    {e : Expr}
    {p : Part}
    {s u : Scope}
    (hNumbers : s.Numbers cs)
    (hVisits : Visits resolver e s p u) :
    p.HasText (e.flux resolver cs.length) := by
  induction e generalizing s p u cs with
  | constant value =>
      cases hVisits with
      | constant =>
          rw [flux, ← hNumbers.nextName_eq]
          rfl
  | member name =>
      cases hVisits with
      | member =>
          rw [Part.ofColumn_eq_cell, flux]
          rfl
  | index name key =>
      cases hVisits with
      | index =>
          rw [flux]
          rfl
  | binary op left right ihLeft ihRight =>
      rw [flux, ← List.length_append]
      cases hVisits with
      | comparison hComparison hLeft hRight =>
          apply Part.HasText.comparison
            hLeft.eq_of_isTimeColumn hRight.eq_of_isTimeColumn
          exact .binary
            (BinaryOp.token?_of_isComparison hComparison)
            (ihLeft hNumbers hLeft)
            (ihRight (hLeft.numbers hNumbers) hRight)
      | connective _ hToken hLeft hRight =>
          exact .binary hToken (ihLeft hNumbers hLeft)
            (ihRight (hLeft.numbers hNumbers) hRight)
  | unary op operand ih =>
      cases hVisits with
      | convert hOperand =>
          rw [flux]
          exact ih hNumbers hOperand
  | call receiver method args ihReceiver ihArgs =>
      cases hVisits with
      | call hFunction hReceiver hArgs =>
          have hTexts := hArgs.hasTexts_of
            (fun arg hMem p s t cs => ihArgs arg hMem)
            (hReceiver.numbers hNumbers)
          rw [List.length_append] at hTexts
          have hReceived := ihReceiver hNumbers hReceiver
          simp only [flux, hFunction]
          apply Part.HasText.call
          rw [List.map_cons, List.map_cons, hTexts, hReceived]
  | parameter name => cases hVisits
  | conditional test ifTrue ifFalse _ _ _ => cases hVisits

end Expr

end TypedFlux

------------------------------------------------------------
-- Bounds of the Range
------------------------------------------------------------

namespace TypedFlux

namespace Expr

/-
  How a conjunct bounds the range: whether the time is at its
  left, and its operator.  It has the time of a row on one side
  and a constant on the other.
-/
def timeBound?
    (resolver : Resolver) : Expr → Option (Bool × BinaryOp)
  | .binary op left right =>
      if op.isComparison && left.isTime resolver
          && (Drafting.constant? right).isSome then
        some (true, op)
      else if op.isComparison
          && (Drafting.constant? left).isSome
          && right.isTime resolver then
        some (false, op)
      else none
  | .unary .convert operand => operand.timeBound? resolver
  | _ => none

/- The bounds that a conjunct sets. -/
def bounds
    (resolver : Resolver)
    (e : Expr) : List Bound :=
  match e.timeBound? resolver with
  | none => []
  | some (timeAtLeft, op) =>
      match op.bounds timeAtLeft with
      | .ok bounds => bounds
      | .error _ => []

variable {resolver : Resolver}
variable {cs : List Constant}

/- A bound is a comparison with the time on one side. -/
theorem isBound_eq_isSome
    (e : Expr) :
    e.isBound resolver = (e.timeBound? resolver).isSome := by
  induction e with
  | binary op left right _ _ =>
      unfold isBound timeBound?
      cases op.isComparison <;> cases left.isTime resolver <;>
        cases (Drafting.constant? right).isSome <;>
        cases (Drafting.constant? left).isSome <;>
        cases right.isTime resolver <;> rfl
  | unary op operand ih =>
      cases op with
      | convert => exact ih
      | not => rfl
      | negate => rfl
  | constant | member | index | call | parameter
  | conditional => rfl

theorem bounds_of_isBound_false
    {e : Expr}
    (hBound : e.isBound resolver = false) :
    e.bounds resolver = [] := by
  rw [isBound_eq_isSome, Option.isSome_eq_false_iff,
    Option.isNone_iff_eq_none] at hBound
  simp [bounds, hBound]

theorem member?_of_isTime
    {e : Expr}
    (hTime : e.isTime resolver = true) :
    ∃ name, e.member? = some name := by
  induction e with
  | member name => exact ⟨name, rfl⟩
  | unary op operand ih =>
      cases op with
      | convert => exact ih hTime
      | not => cases hTime
      | negate => cases hTime
  | constant | index | binary | call | parameter
  | conditional => cases hTime

/- The time itself takes no name. -/
theorem constants_of_isTime
    {e : Expr}
    (isTag : Bool)
    (hTime : e.isTime resolver = true) :
    e.constants resolver isTag = [] := by
  rcases member?_of_isTime hTime with ⟨name, hMember⟩
  exact constants_of_member? isTag hMember

/- A constant is written as the next name. -/
theorem Visits.eq_literal
    {e : Expr}
    {p : Part}
    {s u : Scope}
    (hNumbers : s.Numbers cs)
    (hVisits : Visits resolver e s p u)
    (hConstant : (Drafting.constant? e).isSome = true) :
    p = .literal (Variables.nameAfter cs.length) := by
  rw [← hVisits.fits.literal] at hConstant
  rcases Part.eq_literal_of_isLiteral hConstant with ⟨x, rfl⟩
  rw [hVisits.eq_nextName, hNumbers.nextName_eq]

/- A constant is not the time of a row. -/
theorem Visits.isTime_of_constant?
    {e : Expr}
    {p : Part}
    {s u : Scope}
    (hVisits : Visits resolver e s p u)
    (hConstant : (Drafting.constant? e).isSome = true) :
    e.isTime resolver = false := by
  rw [← hVisits.fits.literal] at hConstant
  rw [← hVisits.fits.time]
  exact Part.isTimeColumn_of_isLiteral hConstant

/-
  The time has no constants, so the bound is the first constant
  of a comparison on either side.
-/
theorem Visits.timeBound?_comparison
    {op : BinaryOp}
    {left right : Expr}
    {p q : Part}
    {s t u : Scope}
    (hNumbers : s.Numbers cs)
    (hComparison : op.isComparison = true)
    (hLeft : Visits resolver left s p t)
    (hRight : Visits resolver right t q u) :
    (Part.comparison op p q).timeBound? =
      ((Expr.binary op left right).timeBound? resolver).map
        fun found =>
          (.literal (Variables.nameAfter cs.length), found) := by
  unfold Part.comparison timeBound?
  rw [hLeft.fits.time, hRight.fits.time, hLeft.fits.literal,
    hRight.fits.literal, hComparison]
  by_cases hFirst : left.isTime resolver = true ∧
      (Drafting.constant? right).isSome = true
  · rcases hFirst with ⟨hTime, hConstant⟩
    have hMiddle : t.Numbers cs := by
      have hWalked := hLeft.numbers hNumbers
      rw [constants_of_isTime false hTime, List.append_nil]
        at hWalked
      exact hWalked
    rw [hRight.eq_literal hMiddle hConstant]
    simp [hTime, hConstant, hRight.isTime_of_constant? hConstant,
      Part.timeBound?]
  · by_cases hSecond : (Drafting.constant? left).isSome = true ∧
        right.isTime resolver = true
    · rcases hSecond with ⟨hConstant, hTime⟩
      rw [hLeft.eq_literal hNumbers hConstant]
      simp [hTime, hConstant,
        hLeft.isTime_of_constant? hConstant, Part.timeBound?]
    · simp only [Bool.and_eq_true, Bool.true_and]
      rw [if_neg fun hBoth => hFirst ⟨hBoth.1.1, hBoth.2⟩,
        if_neg fun hBoth => hSecond ⟨hBoth.2, hBoth.1.2⟩,
        if_neg hFirst, if_neg hSecond]
      rfl

/- A part sets the bounds of its expression. -/
theorem Visits.timeBound?_eq
    {e : Expr}
    {p : Part}
    {s u : Scope}
    (hNumbers : s.Numbers cs)
    (hVisits : Visits resolver e s p u) :
    p.timeBound? =
      (e.timeBound? resolver).map fun found =>
        (.literal (Variables.nameAfter cs.length), found) := by
  induction e generalizing s p u with
  | constant value =>
      cases hVisits with
      | constant => rfl
  | member name =>
      cases hVisits with
      | member =>
          rw [Part.ofColumn_eq_cell]
          rfl
  | index name key =>
      cases hVisits with
      | index => rfl
  | binary op left right _ _ =>
      cases hVisits with
      | comparison hComparison hLeft hRight =>
          exact hLeft.timeBound?_comparison hNumbers
            hComparison hRight
      | connective hOther =>
          simp [timeBound?, hOther, Part.timeBound?]
  | unary op operand ih =>
      cases hVisits with
      | convert hOperand => exact ih hNumbers hOperand
  | call receiver method args _ _ =>
      cases hVisits with
      | call => rfl
  | parameter name => cases hVisits
  | conditional test ifTrue ifFalse _ _ _ => cases hVisits

end Expr

/- Begin or end a range elsewhere, where bounds are given. -/
def Pipeline.setRange
    (p : Pipeline)
    (start? stop? : Option String) : Pipeline :=
  { p with
    start := start?.getD p.start
    stop? := stop?.or p.stop? }

theorem Pipeline.setRange_none
    (p : Pipeline) :
    p.setRange none none = p := by
  simp [setRange]

/- Of two ranges, the later bounds count. -/
theorem Pipeline.setRange_setRange
    (p : Pipeline)
    (start? stop? start'? stop'? : Option String) :
    (p.setRange start? stop?).setRange start'? stop'? =
      p.setRange (start'?.or start?) (stop'?.or stop?) := by
  simp [setRange, Option.getD_or, Option.or_assoc]

/- A name, if it is assigned to a bound. -/
def Bound.assigned?
    (bound : Bound)
    (x : String)
    (bounds : List Bound) : Option String :=
  if bounds.contains bound then some x else none

namespace Range

/- A constant bounds the range as its operator says. -/
theorem restrict_literal
    {part : Part}
    {x : String}
    {timeAtLeft : Bool}
    {op : BinaryOp}
    (r : Range)
    (hBound : part.timeBound? =
      some (.literal x, timeAtLeft, op)) :
    r.restrict part =
      (op.bounds timeAtLeft).map (r.assign x op) := by
  simp only [restrict, hBound]
  cases op.bounds timeAtLeft with
  | error e => rfl
  | ok bounds => rfl

/- Bounds that are assigned are marked, and nothing else is. -/
theorem assign_eq
    (r : Range)
    (x : String)
    (op : BinaryOp)
    (bounds : List Bound) :
    (r.assign x op bounds).1 =
      ⟨⟨r.marks.start || bounds.contains .start,
          r.marks.stop || bounds.contains .stop⟩,
        r.pipeline.setRange (Bound.start.assigned? x bounds)
          (Bound.stop.assigned? x bounds)⟩ := by
  induction bounds generalizing r with
  | nil => simp [assign, Bound.assigned?, Pipeline.setRange_none]
  | cons bound bounds ih =>
      rw [assign, ih]
      cases bound with
      | start =>
          by_cases hLater : Bound.start ∈ bounds
          · simp [set, Bound.assigned?, hLater,
              Pipeline.setRange, Pipeline.setStart]
          · simp [set, Bound.assigned?, hLater,
              Pipeline.setRange, Pipeline.setStart]
      | stop =>
          by_cases hLater : Bound.stop ∈ bounds
          · simp [set, Bound.assigned?, hLater,
              Pipeline.setRange, Pipeline.setStop]
          · simp [set, Bound.assigned?, hLater,
              Pipeline.setRange, Pipeline.setStop]

end Range

/- A part that narrows the range sets the bounds of its expression. -/
theorem Expr.Visits.restrict_eq
    {resolver : Resolver}
    {cs : List Constant}
    {e : Expr}
    {p : Part}
    {s u : Scope}
    {r range : Range}
    {events : List Event}
    (hNumbers : s.Numbers cs)
    (hVisits : Visits resolver e s p u)
    (hRange : r.restrict p = .ok (range, events)) :
    range =
      ⟨⟨r.marks.start || (e.bounds resolver).contains .start,
          r.marks.stop || (e.bounds resolver).contains .stop⟩,
        r.pipeline.setRange
          (Bound.start.assigned? (Variables.nameAfter cs.length)
            (e.bounds resolver))
          (Bound.stop.assigned? (Variables.nameAfter cs.length)
            (e.bounds resolver))⟩ := by
  have hBound := hVisits.timeBound?_eq hNumbers
  cases hFound : e.timeBound? resolver with
  | none =>
      rw [hFound] at hBound
      simp [Range.restrict, hBound] at hRange
  | some found =>
      rcases found with ⟨timeAtLeft, op⟩
      rw [hFound] at hBound
      rw [r.restrict_literal hBound] at hRange
      cases hBounds : op.bounds timeAtLeft with
      | error error =>
          rw [hBounds] at hRange
          cases hRange
      | ok bounds =>
          have hSame : e.bounds resolver = bounds := by
            simp only [Expr.bounds, hFound, hBounds]
          rw [hBounds] at hRange
          have hAssign := Except.ok.inj hRange
          rw [hSame, ← r.assign_eq _ op, hAssign]

end TypedFlux
