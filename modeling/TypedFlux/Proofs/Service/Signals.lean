import TypedFlux.Service.Cancellation
import TypedFlux.Service.Executor

/-
  Signals, and the courses of calls that wait for them.

  While a call waits, the handles of its channel are used,
  copied and dropped.  Its course has a request whenever such an
  act leaves the channel cancelled.  Once the last handle of a
  channel is gone, no act cancels the channel any more.

  Key definitions include:
    * `Cancellation.Act`, `Cancellation.perform`
    * `Cancellation.Incident`, `Cancellation.course`
    * `Cancellation.Abandoned`, `Cancellation.LastHandle`
    * `Course.Quiet`

  Key theorems include:
    * `Cancellation.Abandoned.perform`
    * `Cancellation.isCancelled_perform`
    * `Cancellation.LastHandle.quiet_course`
-/

------------------------------------------------------------
-- Courses of a Signal
------------------------------------------------------------

namespace TypedFlux

/- Nobody cancels the call, neither before nor meanwhile. -/
structure Course.Quiet (c : Course) : Prop where
  before : c.cancelled = false
  meanwhile : .request ∉ c.turns

namespace Cancellation

/- What is done with handles and signals. -/
inductive Act where
  | cancel (handle : Nat)
  | drop (handle : Nat)
  | cloneHandle (handle : Nat)
  | addSignal (handle : Nat)
  | cloneSignal (signal : Nat)
  | addNever
  | addConnected

/- The handles and signals after an act. -/
def perform
    (c : Cancellation) : Act → Cancellation
  | .cancel handle => c.cancel handle
  | .drop handle => c.drop handle
  | .cloneHandle handle => c.cloneHandle handle
  | .addSignal handle => c.addSignal handle
  | .cloneSignal signal => c.cloneSignal signal
  | .addNever => c.addNever
  | .addConnected => c.addConnected

/-
  What happens while a call waits: somebody acts on a handle or
  a signal, or the service or the caller has its turn.
-/
inductive Incident where
  | act (act : Act)
  | silence
  | answer
  | notice

/- The turns of a call that waits for a channel. -/
def turns
    (channel : Nat)
    (c : Cancellation) : List Incident → List Turn
  | [] => []
  | .act act :: rest =>
      let later := c.perform act
      if later.isCancelled channel then
        .request :: turns channel later rest
      else turns channel later rest
  | .silence :: rest => .silence :: turns channel c rest
  | .answer :: rest => .answer :: turns channel c rest
  | .notice :: rest => .notice :: turns channel c rest

/- The handles and signals after all of this. -/
def after
    (c : Cancellation) : List Incident → Cancellation
  | [] => c
  | .act act :: rest => (c.perform act).after rest
  | .silence :: rest | .answer :: rest | .notice :: rest =>
      c.after rest

/- The course of a call that waits for a channel. -/
def course
    (channel : Nat)
    (c : Cancellation)
    (incidents : List Incident) : Course where
  cancelled := c.isCancelled channel
  turns := c.turns channel incidents

end Cancellation

end TypedFlux

------------------------------------------------------------
-- Abandoned Channels
------------------------------------------------------------

namespace TypedFlux

namespace Cancellation

/-
  A channel that is not cancelled, and of which no handle is
  left.
-/
structure Abandoned
    (c : Cancellation)
    (channel : Nat) : Prop where
  known : channel < c.channels.length
  uncancelled : c.isCancelled channel = false
  handleless : some channel ∉ c.handles

/-
  A handle that nobody else has a copy of, of a channel that is
  not cancelled.
-/
structure LastHandle
    (c : Cancellation)
    (channel handle : Nat) : Prop where
  known : channel < c.channels.length
  uncancelled : c.isCancelled channel = false
  only : ∀ other,
    c.channel? other = some channel → other = handle

variable {c : Cancellation}
variable {channel : Nat}

theorem mem_handles_of_channel?
    {handle : Nat}
    (hChannel : c.channel? handle = some channel) :
    some channel ∈ c.handles :=
  List.mem_of_getElem? (Option.join_eq_some_iff.mp hChannel)

namespace Abandoned

/- No step brings an abandoned channel back. -/
theorem cancel
    (hAbandoned : c.Abandoned channel)
    (handle : Nat) :
    (c.cancel handle).Abandoned channel := by
  unfold Cancellation.cancel
  cases hChannel : c.channel? handle with
  | none => exact hAbandoned
  | some other =>
      have hOther : other ≠ channel := by
        rintro rfl
        exact hAbandoned.handleless
          (mem_handles_of_channel? hChannel)
      refine ⟨?_, ?_, hAbandoned.handleless⟩
      · simpa using hAbandoned.known
      · have hOpen := hAbandoned.uncancelled
        unfold isCancelled at hOpen ⊢
        simpa [List.getD_eq_getElem?_getD,
          List.getElem?_set_ne hOther] using hOpen

theorem drop
    (hAbandoned : c.Abandoned channel)
    (handle : Nat) :
    (c.drop handle).Abandoned channel := by
  refine ⟨hAbandoned.known, hAbandoned.uncancelled, ?_⟩
  intro hMem
  rcases List.mem_or_eq_of_mem_set hMem with hMem | hNone
  · exact hAbandoned.handleless hMem
  · cases hNone

theorem cloneHandle
    (hAbandoned : c.Abandoned channel)
    (handle : Nat) :
    (c.cloneHandle handle).Abandoned channel := by
  refine ⟨hAbandoned.known, hAbandoned.uncancelled, ?_⟩
  intro hMem
  rcases List.mem_append.mp hMem with hMem | hMem
  · exact hAbandoned.handleless hMem
  · exact hAbandoned.handleless (mem_handles_of_channel?
      (List.mem_singleton.mp hMem).symm)

/- Another channel is not this one. -/
theorem addNever
    (hAbandoned : c.Abandoned channel) :
    c.addNever.Abandoned channel := by
  refine ⟨?_, ?_, hAbandoned.handleless⟩
  · have hKnown := hAbandoned.known
    simp only [Cancellation.addNever, List.length_append,
      List.length_singleton]
    omega
  · have hOpen := hAbandoned.uncancelled
    unfold isCancelled at hOpen ⊢
    simpa [List.getD_eq_getElem?_getD, Cancellation.addNever,
      List.getElem?_append_left hAbandoned.known] using hOpen

theorem addConnected
    (hAbandoned : c.Abandoned channel) :
    c.addConnected.Abandoned channel := by
  have hNever := hAbandoned.addNever
  refine ⟨hNever.known, hNever.uncancelled, ?_⟩
  intro hMem
  rcases List.mem_append.mp hMem with hMem | hMem
  · exact hAbandoned.handleless hMem
  · have hEq := Option.some.inj (List.mem_singleton.mp hMem)
    have hKnown := hAbandoned.known
    omega

theorem addSignal
    (hAbandoned : c.Abandoned channel)
    (handle : Nat) :
    (c.addSignal handle).Abandoned channel := by
  unfold Cancellation.addSignal
  cases c.channel? handle with
  | none => exact hAbandoned
  | some other => exact { hAbandoned with }

theorem cloneSignal
    (hAbandoned : c.Abandoned channel)
    (signal : Nat) :
    (c.cloneSignal signal).Abandoned channel := by
  unfold Cancellation.cloneSignal
  cases c.signals[signal]? with
  | none => exact hAbandoned
  | some other => exact { hAbandoned with }

/- No act brings a handle of an abandoned channel back. -/
theorem perform
    (hAbandoned : c.Abandoned channel)
    (act : Act) :
    (c.perform act).Abandoned channel := by
  cases act with
  | cancel handle => exact hAbandoned.cancel handle
  | drop handle => exact hAbandoned.drop handle
  | cloneHandle handle => exact hAbandoned.cloneHandle handle
  | addSignal handle => exact hAbandoned.addSignal handle
  | cloneSignal signal => exact hAbandoned.cloneSignal signal
  | addNever => exact hAbandoned.addNever
  | addConnected => exact hAbandoned.addConnected

/- A call that waits for an abandoned channel is left alone. -/
theorem request_notMem_turns
    (hAbandoned : c.Abandoned channel)
    (incidents : List Incident) :
    .request ∉ c.turns channel incidents := by
  induction incidents generalizing c with
  | nil => exact List.not_mem_nil
  | cons incident rest ih =>
      cases incident with
      | act act =>
          have hLater := hAbandoned.perform act
          rw [turns, hLater.uncancelled]
          exact ih hLater
      | silence | answer | notice =>
          simpa [turns] using ih hAbandoned

end Abandoned

/- The channel of the last handle is left behind. -/
theorem LastHandle.drop
    {handle : Nat}
    (hLast : c.LastHandle channel handle) :
    (c.drop handle).Abandoned channel := by
  refine ⟨hLast.known, hLast.uncancelled, ?_⟩
  intro hMem
  rcases List.mem_iff_getElem?.mp hMem with ⟨other, hOther⟩
  have hNe : handle ≠ other := by
    rintro rfl
    simp [Cancellation.drop, List.getElem?_set] at hOther
  have hSame : c.handles[other]? = some (some channel) := by
    rwa [Cancellation.drop, List.getElem?_set_ne hNe] at hOther
  exact hNe (hLast.only other
    (congrArg Option.join hSame)).symm

end Cancellation

end TypedFlux

------------------------------------------------------------
-- Requests Are Not Taken Back
------------------------------------------------------------

namespace TypedFlux

namespace Cancellation

variable {c : Cancellation}
variable {channel : Nat}

/- A channel is cancelled if it is there and set. -/
theorem isCancelled_eq_true :
    c.isCancelled channel = true ↔
      c.channels[channel]? = some true := by
  rw [isCancelled, List.getD_eq_getElem?_getD]
  cases c.channels[channel]? <;> simp

/- It stays cancelled, whichever handle cancels next. -/
theorem isCancelled_cancel
    (handle : Nat)
    (hCancelled : c.isCancelled channel = true) :
    (c.cancel handle).isCancelled channel = true := by
  unfold cancel
  cases c.channel? handle with
  | none => exact hCancelled
  | some other =>
      rw [isCancelled_eq_true] at hCancelled ⊢
      rw [List.getElem?_set]
      split
      · have hKnown := (List.getElem?_eq_some_iff.mp hCancelled).1
        simp_all
      · exact hCancelled

theorem isCancelled_addNever
    (hCancelled : c.isCancelled channel = true) :
    c.addNever.isCancelled channel = true := by
  rw [isCancelled_eq_true] at hCancelled ⊢
  have hKnown := (List.getElem?_eq_some_iff.mp hCancelled).1
  rw [addNever, List.getElem?_append_left hKnown, hCancelled]

/- A channel that is cancelled stays so. -/
theorem isCancelled_perform
    (act : Act)
    (hCancelled : c.isCancelled channel = true) :
    (c.perform act).isCancelled channel = true := by
  cases act with
  | cancel handle => exact isCancelled_cancel handle hCancelled
  | drop handle | cloneHandle handle => exact hCancelled
  | addSignal handle =>
      rw [perform, addSignal]
      split <;> exact hCancelled
  | cloneSignal signal =>
      rw [perform, cloneSignal]
      split <;> exact hCancelled
  | addNever => exact isCancelled_addNever hCancelled
  | addConnected => exact isCancelled_addNever hCancelled

/- Turns of incidents in a row follow each other. -/
theorem turns_append
    (earlier later : List Incident) :
    c.turns channel (earlier ++ later) =
      c.turns channel earlier ++
        (c.after earlier).turns channel later := by
  induction earlier generalizing c with
  | nil => rfl
  | cons incident rest ih =>
      cases incident with
      | act act =>
          simp only [List.cons_append, turns, after, ih]
          split <;> rfl
      | silence | answer | notice =>
          simp only [List.cons_append, turns, after, ih]

/- Nobody has cancelled what is not cancelled in the end. -/
theorem quiet_of_after
    {incidents : List Incident}
    (hAfter : (c.after incidents).isCancelled channel = false) :
    (c.course channel incidents).Quiet := by
  induction incidents generalizing c with
  | nil => exact ⟨hAfter, List.not_mem_nil⟩
  | cons incident rest ih =>
      cases incident with
      | act act =>
          have hLater := ih hAfter
          have hOpen : (c.perform act).isCancelled channel =
              false := hLater.before
          refine ⟨Bool.eq_false_iff.mpr fun hCancelled => ?_, ?_⟩
          · rw [isCancelled_perform act hCancelled] at hOpen
            cases hOpen
          · rw [course, turns, hOpen]
            exact hLater.meanwhile
      | silence | answer | notice =>
          refine ⟨(ih hAfter).before, ?_⟩
          simpa [course, turns] using (ih hAfter).meanwhile

/-
  Dropping the last handle disturbs no call, before or after.
-/
theorem LastHandle.quiet_course
    {handle : Nat}
    {earlier : List Incident}
    (hLast : (c.after earlier).LastHandle channel handle)
    (later : List Incident) :
    (c.course channel
      (earlier ++ .act (.drop handle) :: later)).Quiet := by
  have hEarlier := quiet_of_after hLast.uncancelled
  have hDropped := hLast.drop
  refine ⟨hEarlier.before, ?_⟩
  rw [course, turns_append, turns, perform, hDropped.uncancelled]
  intro hMem
  rcases List.mem_append.mp hMem with hMem | hMem
  · exact hEarlier.meanwhile hMem
  · exact hDropped.request_notMem_turns later hMem

end Cancellation

end TypedFlux
