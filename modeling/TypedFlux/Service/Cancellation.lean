/-
  Requests to cancel.

  A handle requests the cancellation that the signals of its
  channel see.  A handle may be dropped; then the channel stays
  as it is as long as no other handle of it is left.

  Key definitions include:
    * `Cancellation`
    * `Cancellation.cancel`
    * `Cancellation.handleStates`
    * `Cancellation.signalStates`
-/

namespace TypedFlux

/-
  Channels with whether they are cancelled, the channels of the
  handles, `none` for those that were dropped, and the channels
  of the signals.
-/
structure Cancellation where
  channels : List Bool
  handles : List (Option Nat)
  signals : List Nat

namespace Cancellation

/- One handle and one signal of it. -/
def connected : Cancellation :=
  ⟨[false], [some 0], [0]⟩

/- The channel of a handle that is still there. -/
def channel?
    (c : Cancellation)
    (handle : Nat) : Option Nat :=
  (c.handles[handle]?).join

/- Whether a channel is cancelled. -/
def isCancelled
    (c : Cancellation)
    (channel : Nat) : Bool :=
  c.channels.getD channel false

/- Request the cancellation of a handle's channel. -/
def cancel
    (c : Cancellation)
    (handle : Nat) : Cancellation :=
  match c.channel? handle with
  | some channel => { c with channels := c.channels.set channel true }
  | none => c

/- Drop a handle. -/
def drop
    (c : Cancellation)
    (handle : Nat) : Cancellation :=
  { c with handles := c.handles.set handle none }

/- Another handle of the same channel. -/
def cloneHandle
    (c : Cancellation)
    (handle : Nat) : Cancellation :=
  { c with handles := c.handles ++ [c.channel? handle] }

/- Another signal of a handle's channel. -/
def addSignal
    (c : Cancellation)
    (handle : Nat) : Cancellation :=
  match c.channel? handle with
  | some channel => { c with signals := c.signals ++ [channel] }
  | none => c

/- Another signal of a signal's channel. -/
def cloneSignal
    (c : Cancellation)
    (signal : Nat) : Cancellation :=
  match c.signals[signal]? with
  | some channel => { c with signals := c.signals ++ [channel] }
  | none => c

/- A signal of a channel without a handle: it never fires. -/
def addNever (c : Cancellation) : Cancellation :=
  { c with
    channels := c.channels ++ [false]
    signals := c.signals ++ [c.channels.length] }

/- Another handle and a signal of it. -/
def addConnected (c : Cancellation) : Cancellation :=
  { c.addNever with
    handles := c.handles ++ [some c.channels.length] }

/- Whether each handle is cancelled, `none` if dropped. -/
def handleStates (c : Cancellation) : List (Option Bool) :=
  c.handles.map (·.map c.isCancelled)

/- Whether each signal is cancelled, and so fires at once. -/
def signalStates (c : Cancellation) : List Bool :=
  c.signals.map c.isCancelled

end Cancellation

end TypedFlux
