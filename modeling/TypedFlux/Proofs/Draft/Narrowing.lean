import Mathlib.Data.Option.NAry
import TypedFlux.Proofs.Draft.Failures
import TypedFlux.Proofs.Draft.Rendering
import TypedFlux.Proofs.Draft.Selection

/-
  Comparisons of the time, one after the other.

  Of all the parts that narrow a range, the last that sets a
  bound decides it.  Each that sets it again tells so, with the
  text that it replaces.  A part that is turned away leaves no
  trace.

  Key definitions include:
    * `Part.textFor?`, `Part.textsFor`, `Part.lastText?`
    * `Event.replaced?`
    * `Draft.narrowAll`, `Draft.Narrowed`

  Key theorems include:
    * `Range.restrict_cases`
    * `Range.replaced_assign`
    * `Draft.Narrowed.restrict`, `Draft.Narrowed.narrowAll`
    * `Draft.restrict_ok_iff`
    * `Draft.narrowAll_last`
-/

------------------------------------------------------------
-- Texts of Bounds
------------------------------------------------------------

namespace TypedFlux

/- Whether a comparison sets a bound of its left operand. -/
def BinaryOp.sets (op : BinaryOp) : Bound → Bool
  | .start => op.isLower
  | .stop => op.isUpper

/-
  The bounds that an operator sets, seen from the side of the
  time.
-/
theorem BinaryOp.sets_eq_contains
    (op : BinaryOp)
    (timeAtLeft : Bool)
    (bound : Bound) :
    (if timeAtLeft then op else op.mirrored).sets bound =
      ((op.bounds timeAtLeft).toOption.getD []).contains
        bound := by
  cases op <;> cases timeAtLeft <;> cases bound <;> rfl

/- A comparison sets some bound, and none of them twice. -/
theorem BinaryOp.nodup_bounds
    {op : BinaryOp}
    {timeAtLeft : Bool}
    {bounds : List Bound}
    (hBounds : op.bounds timeAtLeft = .ok bounds) :
    bounds ≠ [] ∧ bounds.Nodup := by
  cases op <;> cases hBounds <;> simp

/- A bound is assigned if it is among the bounds. -/
theorem Bound.isSome_assigned?
    (bound : Bound)
    (x : String)
    (bounds : List Bound) :
    (bound.assigned? x bounds).isSome =
      bounds.contains bound := by
  unfold assigned?
  cases bounds.contains bound with
  | true => rfl
  | false => rfl

namespace Part

/- The text that a part sets a bound to, if it sets it. -/
def textFor? (bound : Bound) : Part → Option String
  | .timeBound none (some limit) op =>
      if op.sets bound then limit.text.toOption else none
  | .timeBound (some limit) none op =>
      if op.mirrored.sets bound then limit.text.toOption
      else none
  | _ => none

/- All texts that parts set a bound to, in order. -/
def textsFor
    (bound : Bound)
    (parts : List Part) : List String :=
  parts.filterMap (textFor? bound)

/- The last text that parts set a bound to. -/
def lastText?
    (bound : Bound)
    (parts : List Part) : Option String :=
  (textsFor bound parts).getLast?

theorem textFor?_eq
    (part : Part)
    (bound : Bound) :
    part.textFor? bound =
      part.timeBound?.bind fun (limit, timeAtLeft, op) =>
        if (if timeAtLeft then op else op.mirrored).sets bound
          then limit.text.toOption
        else none := by
  cases part with
  | timeBound left right op =>
      cases left <;> cases right <;> rfl
  | literal | column | binary | call | indexed | blank => rfl

/- Texts are collected in the order of the parts. -/
theorem textsFor_append
    (bound : Bound)
    (parts : List Part)
    (part : Part) :
    textsFor bound (parts ++ [part]) =
      textsFor bound parts ++ (part.textFor? bound).toList := by
  unfold textsFor
  rw [List.filterMap_append]
  cases hText : part.textFor? bound with
  | none => simp [hText]
  | some text => simp [hText]

/- The last of them counts. -/
theorem lastText?_append
    (bound : Bound)
    (parts : List Part)
    (part : Part) :
    lastText? bound (parts ++ [part]) =
      (part.textFor? bound).or (lastText? bound parts) := by
  unfold lastText?
  rw [textsFor_append, List.getLast?_append]
  cases part.textFor? bound with
  | none => rfl
  | some text => rfl

end Part

------------------------------------------------------------
-- One Comparison
------------------------------------------------------------

/- The texts of an event that replaces a bound. -/
def Event.replaced? (bound : Bound) :
    Event → Option (String × String)
  | .overwritten target previous current =>
      if target = bound then some (previous, current) else none
  | _ => none

/- One more text replaces the last, if there is one. -/
theorem zip_tail_append
    (texts : List String)
    (current? : Option String) :
    (texts ++ current?.toList).zip
        (texts ++ current?.toList).tail =
      texts.zip texts.tail ++
        (Option.map₂ Prod.mk texts.getLast? current?).toList := by
  cases current? with
  | none => simp
  | some current =>
      induction texts with
      | nil => rfl
      | cons text texts ih =>
          cases texts with
          | nil => rfl
          | cons next texts =>
              exact congrArg (List.cons (text, next)) ih

namespace Range

/-
  A part is turned away and sets no bound, or its text is
  assigned to the bounds that it sets.
-/
theorem restrict_cases
    (r : Range)
    (part : Part) :
    (∃ e, r.restrict part = .error e ∧
      ∀ bound, part.textFor? bound = none) ∨
    ∃ x op bounds,
      r.restrict part = .ok (r.assign x op bounds) ∧
      bounds ≠ [] ∧ bounds.Nodup ∧
      ∀ bound, part.textFor? bound =
        bound.assigned? x bounds := by
  cases hFound : part.timeBound? with
  | none =>
      refine .inl ⟨_, by rw [restrict, hFound], ?_⟩
      intro bound
      rw [part.textFor?_eq, hFound]
      rfl
  | some found =>
      rcases found with ⟨limit, timeAtLeft, op⟩
      simp only [restrict, hFound, part.textFor?_eq,
        Option.bind_some, op.sets_eq_contains timeAtLeft]
      cases hBounds : op.bounds timeAtLeft with
      | error e => exact .inl ⟨e, rfl, fun _ => rfl⟩
      | ok bounds =>
          cases limit.text with
          | error e =>
              refine .inl ⟨e, rfl, fun bound => ?_⟩
              exact ite_self none
          | ok x =>
              rcases BinaryOp.nodup_bounds hBounds with
                ⟨hSome, hNodup⟩
              exact .inr ⟨x, op, bounds, rfl, hSome, hNodup,
                fun _ => rfl⟩

variable (r : Range)
variable (x : String)
variable (op : BinaryOp)

/- Setting one bound does not change the other. -/
theorem previous?_set_of_ne
    {bound target : Bound}
    (hOther : bound ≠ target) :
    (r.set x target).previous? bound = r.previous? bound := by
  cases bound with
  | start =>
      cases target with
      | start => exact absurd rfl hOther
      | stop => rfl
  | stop =>
      cases target with
      | start => rfl
      | stop => exact absurd rfl hOther

/- Only a bound that had a text is replaced. -/
theorem replaced_events
    (target bound : Bound) :
    (r.events x op target).filterMap (Event.replaced? bound) =
      if target = bound then
        (r.previous? bound).toList.map fun text => (text, x)
      else [] := by
  unfold events
  by_cases hSame : target = bound
  · subst hSame
    cases r.previous? target with
    | none => simp [Event.replaced?]
    | some previous => simp [Event.replaced?]
  · cases r.previous? target with
    | none => simp [Event.replaced?, hSame]
    | some previous => simp [Event.replaced?, hSame]

/- Every bound that was set before is replaced once. -/
theorem replaced_assign
    {bounds : List Bound}
    (hNodup : bounds.Nodup)
    (bound : Bound) :
    (r.assign x op bounds).2.filterMap (Event.replaced? bound) =
      if bound ∈ bounds then
        (r.previous? bound).toList.map fun text => (text, x)
      else [] := by
  induction bounds generalizing r with
  | nil => rfl
  | cons target bounds ih =>
      rcases List.nodup_cons.mp hNodup with ⟨hNew, hNodup⟩
      rw [assign, List.filterMap_append, replaced_events,
        ih _ hNodup]
      by_cases hSame : target = bound
      · subst hSame
        simp [hNew]
      · have hOther : bound ≠ target := Ne.symm hSame
        rw [r.previous?_set_of_ne x hOther]
        simp [hSame, hOther]

end Range

end TypedFlux

------------------------------------------------------------
-- Comparisons in Turn
------------------------------------------------------------

namespace TypedFlux

namespace Draft

open TypedFlux.Part

/- Narrow the range by parts in turn, as far as possible. -/
def narrowAll
    (d : Draft)
    (parts : List Part) : Draft :=
  parts.foldl (fun d part => (Drafting.restrict part d).2) d

/-
  A draft whose bounds come from parts, the last of them for
  each bound.  Its journal tells of each text in turn that
  replaced the one before it.  Nothing else differs.
-/
structure Narrowed
    (d : Draft)
    (parts : List Part)
    (d' : Draft) : Prop where
  range : d'.range =
    ⟨⟨(lastText? .start parts).isSome,
        (lastText? .stop parts).isSome⟩,
      d.pipeline.setRange (lastText? .start parts)
        (lastText? .stop parts)⟩
  options : d'.scope.options = d.scope.options
  usesStrings : d'.scope.usesStrings = d.scope.usesStrings
  tailTaken : d'.tailTaken = d.tailTaken
  journal : ∃ events,
    d'.scope.journal = d.scope.journal ++ events ∧
    ∀ bound, events.filterMap (Event.replaced? bound) =
      (textsFor bound parts).zip (textsFor bound parts).tail

variable {d u : Draft}
variable {parts : List Part}

/- What a bound replaces is the last text before it. -/
theorem Narrowed.previous?_eq
    (hNarrowed : Narrowed d parts u)
    (bound : Bound) :
    u.range.previous? bound = lastText? bound parts := by
  rw [hNarrowed.range]
  cases bound with
  | start =>
      cases hLast : lastText? .start parts with
      | none => rfl
      | some text => rfl
  | stop =>
      cases hLast : lastText? .stop parts with
      | none => rfl
      | some text => rfl

/- What one more part replaces. -/
theorem Narrowed.replaced
    (hNarrowed : Narrowed d parts u)
    (part : Part) :
    ∃ events,
      (Drafting.restrict part u).2.scope.journal =
        u.scope.journal ++ events ∧
      ∀ bound, events.filterMap (Event.replaced? bound) =
        (Option.map₂ Prod.mk (lastText? bound parts)
          (part.textFor? bound)).toList := by
  rcases u.range.restrict_cases part with
    ⟨e, hError, hNone⟩ | ⟨x, op, bounds, hOk, _, hNodup, hTexts⟩
  · rw [Drafting.restrict_eq_error.mpr ⟨hError, rfl⟩]
    refine ⟨[], (List.append_nil _).symm, fun bound => ?_⟩
    rw [hNone, Option.map₂_none_right]
    rfl
  · have hRun := (Drafting.restrict_eq_ok (a := ())).mpr
      ⟨_, _, hOk, rfl⟩
    rw [hRun]
    refine ⟨_, rfl, fun bound => ?_⟩
    rw [u.range.replaced_assign x op hNodup,
      hNarrowed.previous?_eq, hTexts, Bound.assigned?]
    by_cases hMem : bound ∈ bounds
    · rw [if_pos hMem, if_pos (List.contains_iff_mem.mpr hMem)]
      cases lastText? bound parts with
      | none => rfl
      | some text => rfl
    · rw [if_neg hMem,
        if_neg (mt List.contains_iff_mem.mp hMem),
        Option.map₂_none_right]
      rfl

/- One more part narrows the range, or is turned away. -/
theorem Narrowed.restrict
    (hNarrowed : Narrowed d parts u)
    (part : Part) :
    Narrowed d (parts ++ [part])
      (Drafting.restrict part u).2 := by
  have hJournal : ∃ events,
      (Drafting.restrict part u).2.scope.journal =
        d.scope.journal ++ events ∧
      ∀ bound, events.filterMap (Event.replaced? bound) =
        (textsFor bound (parts ++ [part])).zip
          (textsFor bound (parts ++ [part])).tail := by
    rcases hNarrowed.journal with ⟨first, hFirst, hZip⟩
    rcases hNarrowed.replaced part with ⟨next, hNext, hPair⟩
    refine ⟨first ++ next, ?_, fun bound => ?_⟩
    · rw [hNext, hFirst, List.append_assoc]
    · rw [List.filterMap_append, hZip, hPair, textsFor_append,
        zip_tail_append, lastText?]
  rcases u.range.restrict_cases part with
    ⟨e, hError, hNone⟩ | ⟨x, op, bounds, hOk, _, _, hTexts⟩
  · have hSame : ∀ bound,
        lastText? bound (parts ++ [part]) =
          lastText? bound parts := by
      intro bound
      rw [lastText?_append, hNone, Option.none_or]
    rw [Drafting.restrict_eq_error.mpr ⟨hError, rfl⟩]
      at hJournal ⊢
    refine { hNarrowed with range := ?_, journal := hJournal }
    rw [hSame, hSame]
    exact hNarrowed.range
  · rw [(Drafting.restrict_eq_ok (a := ())).mpr
      ⟨_, _, hOk, rfl⟩] at hJournal ⊢
    refine { hNarrowed with range := ?_, journal := hJournal }
    change (u.range.assign x op bounds).1 = _
    rw [Range.assign_eq, hNarrowed.range]
    simp only [lastText?_append, hTexts, Option.isSome_or,
      Bound.isSome_assigned?, Pipeline.setRange_setRange,
      Bool.or_comm]

theorem Narrowed.narrowAll
    {before : List Part}
    (hNarrowed : Narrowed d before u)
    (parts : List Part) :
    Narrowed d (before ++ parts) (u.narrowAll parts) := by
  induction parts generalizing before u with
  | nil =>
      rw [List.append_nil]
      exact hNarrowed
  | cons part parts ih =>
      rw [List.append_cons]
      exact ih (hNarrowed.restrict part)

/- Before any part the bounds are those of the pipeline. -/
theorem narrowed_nil
    (hFresh : d.range.marks = {}) :
    Narrowed d [] d where
  range := by
    change d.range = ⟨{}, d.range.pipeline.setRange none none⟩
    rw [Pipeline.setRange_none, ← hFresh]
  options := rfl
  usesStrings := rfl
  tailTaken := rfl
  journal := ⟨[], (List.append_nil _).symm, fun _ => rfl⟩

/-
  A part narrows the range exactly if it sets a bound; else it
  is turned away, and the draft stays as it is.
-/
theorem restrict_ok_iff
    (part : Part)
    (u : Draft) :
    ((Drafting.restrict part u).1 = .ok () ↔
      ∃ bound, (part.textFor? bound).isSome = true) ∧
    ((Drafting.restrict part u).1 ≠ .ok () →
      (Drafting.restrict part u).2 = u) := by
  rcases u.range.restrict_cases part with
    ⟨e, hError, hNone⟩ | ⟨x, op, bounds, hOk, hSome, _, hTexts⟩
  · rw [Drafting.restrict_eq_error.mpr ⟨hError, rfl⟩]
    simp [hNone]
  · rw [(Drafting.restrict_eq_ok (a := ())).mpr
      ⟨_, _, hOk, rfl⟩]
    rcases List.exists_mem_of_ne_nil bounds hSome with
      ⟨bound, hMem⟩
    refine ⟨⟨fun _ => ⟨bound, ?_⟩, fun _ => rfl⟩,
      fun hFails => absurd rfl hFails⟩
    rw [hTexts, Bound.isSome_assigned?]
    exact List.contains_iff_mem.mpr hMem

/-
  A part that sets no bound is turned away and changes nothing.
  After parts in turn each bound is the text of the last that
  set it, and nothing else has changed.  Each part tells of just
  those bounds that it sets and an earlier one had set.
-/
theorem narrowAll_last
    {d : Draft}
    (hFresh : d.range.marks = {})
    (parts : List Part) :
    (∀ part u,
      ((Drafting.restrict part u).1 = .ok () ↔
        ∃ bound, (part.textFor? bound).isSome = true) ∧
      ((Drafting.restrict part u).1 ≠ .ok () →
        (Drafting.restrict part u).2 = u)) ∧
    (d.narrowAll parts).pipeline =
      { d.pipeline with
        start := (lastText? .start parts).getD d.pipeline.start
        stop? := (lastText? .stop parts).or
          d.pipeline.stop? } ∧
    (d.narrowAll parts).tailTaken = d.tailTaken ∧
    (d.narrowAll parts).scope.options = d.scope.options ∧
    (d.narrowAll parts).scope.usesStrings =
      d.scope.usesStrings ∧
    (∃ events,
      (d.narrowAll parts).scope.journal =
        d.scope.journal ++ events ∧
      ∀ bound, events.filterMap (Event.replaced? bound) =
        (textsFor bound parts).zip
          (textsFor bound parts).tail) ∧
    ∀ part, ∃ events,
      (d.narrowAll (parts ++ [part])).scope.journal =
        (d.narrowAll parts).scope.journal ++ events ∧
      ∀ bound, events.filterMap (Event.replaced? bound) =
        (Option.map₂ Prod.mk (lastText? bound parts)
          (part.textFor? bound)).toList := by
  have hNarrowed : Narrowed d parts (d.narrowAll parts) :=
    (narrowed_nil hFresh).narrowAll parts
  refine ⟨restrict_ok_iff, ?_, hNarrowed.tailTaken,
    hNarrowed.options, hNarrowed.usesStrings,
    hNarrowed.journal, fun part => ?_⟩
  · exact congrArg Range.pipeline hNarrowed.range
  · have hNext : d.narrowAll (parts ++ [part]) =
        (Drafting.restrict part (d.narrowAll parts)).2 :=
      List.foldl_concat _ _ _ _
    rw [hNext]
    exact hNarrowed.replaced part

/-
  Comparisons from both sides, and between them what has no
  side, two sides, no order or no text.
-/
def mixedParts : List Part := [
  .timeBound none (some (.literal "p3")) .greaterThan,
  .blank,
  .timeBound none (some (.literal "p4")) .equal,
  .timeBound (some (.literal "p5")) (some (.literal "p6"))
    .lessThan,
  .timeBound none none .lessThan,
  .timeBound (some (.literal "p7")) none .lessThanOrEqual,
  .timeBound none (some (.literal "p8")) .notEqual,
  .timeBound none (some .blank) .lessThan]

theorem narrowAll_last_mixedParts :
    (Draft.new "b").range.marks = {} ∧
    ((Draft.new "b").narrowAll mixedParts).pipeline =
      { (Draft.new "b").pipeline with
        start := "p7"
        stop? := some "p4" } ∧
    ∃ events,
      ((Draft.new "b").narrowAll mixedParts).scope.journal =
        (Draft.new "b").scope.journal ++ events ∧
      events.filterMap (Event.replaced? .start) =
        [("p3", "p4"), ("p4", "p7")] ∧
      events.filterMap (Event.replaced? .stop) = [] := by
  rcases narrowAll_last (rfl : (Draft.new "b").range.marks = {})
    mixedParts with
    ⟨_, hPipeline, _, _, _, ⟨events, hJournal, hReplaced⟩, _⟩
  exact ⟨rfl, hPipeline, events, hJournal, hReplaced .start,
    hReplaced .stop⟩

end Draft

end TypedFlux
