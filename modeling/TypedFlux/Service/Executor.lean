import TypedFlux.Draft
import TypedFlux.Service.Reduction

/-
  Running queries against a service.

  A blocking service returns all rows at once.  A streaming
  service opens a stream and delivers one row after the other;
  meanwhile the caller may request to cancel.

  Key definitions include:
    * `Response`
    * `Service`
    * `Turn`, `Course`
    * `Response.receive`
    * `Turn.asks`
    * `Executor`
    * `Executor.scalar`, `Executor.single`, `Executor.collection`
    * `Executor.streamScalar`, `Executor.streamCollection`
-/

namespace TypedFlux

------------------------------------------------------------
-- Services
------------------------------------------------------------

/-
  What a service answers: rows, of which each may fail, unless
  it refuses the whole query.
-/
structure Response where
  rows : List (Except String Record)
  refusal? : Option String := none

/- The answer to a script for an organization. -/
abbrev Service :=
  Script → String → Response

/- A script that was sent to a service. -/
structure Request where
  delivery : Delivery
  org : String
  script : Script

namespace Response

/- A row that did not fail. -/
def row : Except String Record → Except QueryError Record
  | .ok record => .ok record
  | .error reason => .error (.execution reason)

/- All rows at once. -/
def all (response : Response) : Except QueryError (List Record) :=
  match response.refusal? with
  | some reason => .error (.execution reason)
  | none => response.rows.mapM row

end Response

------------------------------------------------------------
-- Streams
------------------------------------------------------------

/-
  What comes next for a caller that waits: someone requests to
  cancel, the service is asked and has no answer yet, it
  answers, or the caller notices the request.
-/
inductive Turn where
  | request
  | silence
  | answer
  | notice
deriving DecidableEq, Repr

/-
  The course of a call: whether it was cancelled before, and
  what comes then.
-/
structure Course where
  cancelled : Bool := false
  turns : List Turn

/- Rows received, whether to cancel, and what comes then. -/
structure Received where
  records : List Record
  course : Course

namespace Response

/-
  Wait for rows until the stream ends.  There is no result when
  the course ends first.
-/
def collect
    (cancelled : Bool)
    (received : List Record) :
    List (Except String Record) → List Turn →
      Option (Except QueryError Received)
  | _, [] => none
  | rows, .request :: turns => collect true received rows turns
  | rows, .silence :: turns =>
      collect cancelled received rows turns
  | rows, .notice :: turns =>
      if cancelled then some (.error .cancelled)
      else collect cancelled received rows turns
  | [], .answer :: turns =>
      some (.ok ⟨received, cancelled, turns⟩)
  | .ok record :: rows, .answer :: turns =>
      collect cancelled (received ++ [record]) rows turns
  | .error reason :: _, .answer :: _ =>
      some (.error (.execution reason))

/- Wait for the stream to open, then for its rows. -/
def receive
    (response : Response)
    (cancelled : Bool) :
    List Turn → Option (Except QueryError Received)
  | [] => none
  | .request :: turns => receive response true turns
  | .silence :: turns => receive response cancelled turns
  | .notice :: turns =>
      if cancelled then some (.error .cancelled)
      else receive response cancelled turns
  | .answer :: turns =>
      match response.refusal? with
      | some reason => some (.error (.execution reason))
      | none => collect cancelled [] response.rows turns

end Response

/-
  Whether the service is asked at all: a request that was made
  in time may be noticed before.
-/
def Turn.asks (cancelled : Bool) : List Turn → Bool
  | [] => false
  | .request :: turns => asks true turns
  | .notice :: turns =>
      if cancelled then false else asks cancelled turns
  | .silence :: _ | .answer :: _ => true

/- Whether a request was made by the end of the stream. -/
def Course.isCancelled (c : Course) : Bool :=
  c.cancelled || c.turns.head? == some .request

namespace Course

/- Nobody requests to cancel. -/
def undisturbed (response : Response) : Course :=
  { turns := List.replicate (response.rows.length + 2) .answer }

/- The call was cancelled before it began. -/
def before : Course :=
  { cancelled := true, turns := [] }

/-
  A request is made and noticed while the service is silent.  A
  refusal comes at once.
-/
def duringQuery (response : Response) : Course :=
  match response.refusal? with
  | some _ => undisturbed response
  | none => { turns := [.silence, .request, .notice] }

/-
  A request is made and noticed after some rows, if the stream
  does not end before.
-/
def afterRow
    (response : Response)
    (count : Nat) : Course :=
  if count ≤ response.rows.length then
    { turns :=
        List.replicate (count + 1) .answer
          ++ [.request, .notice] }
  else undisturbed response

/- A request is made just when the stream ends. -/
def atEnd (response : Response) : Course :=
  { turns :=
      List.replicate (response.rows.length + 1) .answer
        ++ [.request, .answer] }

end Course

------------------------------------------------------------
-- Executors
------------------------------------------------------------

/- Runs queries over one bucket of an organization. -/
structure Executor where
  bucket : String
  org : String
  resolver : Resolver
  blocking? : Option Service := none
  streaming? : Option Service := none

/- The result of a call and what was sent for it. -/
structure Outcome (ρ : Type) where
  result : ρ
  sent : List Request

namespace Executor

variable {α : Type}

/- The draft of a query. -/
def draft
    (x : Executor)
    (q : Query) : Except QueryError Draft :=
  Draft.ofQuery x.bucket x.resolver q

/- The draft of a query that is reduced to one value. -/
def scalarDraft
    (x : Executor)
    (q : Query) : Except QueryError Draft := do
  let d ← x.draft q
  if d.pipeline.reduction?.isNone then .error .notScalar
  else .ok d

/- The service of a delivery. -/
def service
    (x : Executor) : Delivery → Except QueryError Service
  | .blocking =>
      match x.blocking? with
      | some service => .ok service
      | none => .error (.misconfigured .blocking)
  | .streaming =>
      match x.streaming? with
      | some service => .ok service
      | none => .error (.misconfigured .streaming)

/- What is sent, and what for: the service comes first. -/
def prepare
    (x : Executor)
    (delivery : Delivery)
    (d : Except QueryError Draft) :
    Except QueryError (Service × Draft) := do
  let service ← x.service delivery
  let d ← d
  .ok (service, d)

------------------------------------------------------------
-- Blocking Calls
------------------------------------------------------------

/- Run a draft and work on all of its rows. -/
def run
    (x : Executor)
    (d : Except QueryError Draft)
    (finish : Draft → List Record → Except QueryError α) :
    Outcome (Except QueryError α) :=
  match x.prepare .blocking d with
  | .error e => ⟨.error e, []⟩
  | .ok (service, d) =>
      ⟨(service d.script x.org).all >>= finish d,
        [⟨.blocking, x.org, d.script⟩]⟩

/- The value that all rows are reduced to. -/
def scalar
    (x : Executor)
    (q : Query) : Outcome (Except QueryError Value) :=
  x.run (x.scalarDraft q) fun d records =>
    Reduction.reduceRecords d.pipeline.reduction? records

/- All rows, each mapped. -/
def collection
    (x : Executor)
    (mapRecord : Record → Except QueryError α)
    (q : Query) : Outcome (Except QueryError (List α)) :=
  x.run (x.draft q) fun _ records => records.mapM mapRecord

/- The only item; none may be fine. -/
def only
    (noneIsFine : Bool) : List α → Except QueryError (Option α)
  | [item] => .ok (some item)
  | [] => if noneIsFine then .ok none else .error .noElements
  | _ => .error .moreThanOneElement

/- The only row, mapped. -/
def single
    (x : Executor)
    (mapRecord : Record → Except QueryError α)
    (noneIsFine : Bool)
    (q : Query) : Outcome (Except QueryError (Option α)) :=
  let all := x.collection mapRecord q
  ⟨all.result >>= only noneIsFine, all.sent⟩

------------------------------------------------------------
-- Streaming Calls
------------------------------------------------------------

/-
  Run a draft against a stream and work on its rows.  Nothing is
  sent if the call was cancelled before, or before the service
  was first asked.
-/
def stream
    (x : Executor)
    (course : Course)
    (d : Except QueryError Draft)
    (finish : Draft → Received → Except QueryError α) :
    Outcome (Option (Except QueryError α)) :=
  match x.prepare .streaming d with
  | .error e => ⟨some (.error e), []⟩
  | .ok (service, d) =>
      if course.cancelled then ⟨some (.error .cancelled), []⟩
      else
        ⟨((service d.script x.org).receive false course.turns).map
            (· >>= finish d),
          if Turn.asks false course.turns then
            [⟨.streaming, x.org, d.script⟩]
          else []⟩

/-
  The value that all rows are reduced to.  Requests are looked
  for once more before the reduction.
-/
def streamScalar
    (x : Executor)
    (course : Course)
    (q : Query) :
    Outcome (Option (Except QueryError Value)) :=
  x.stream course (x.scalarDraft q) fun d received =>
    if received.course.isCancelled then .error .cancelled
    else
      Reduction.reduceRecords d.pipeline.reduction?
        received.records

/- All rows, each mapped. -/
def streamCollection
    (x : Executor)
    (course : Course)
    (mapRecord : Record → Except QueryError α)
    (q : Query) :
    Outcome (Option (Except QueryError (List α))) :=
  x.stream course (x.draft q) fun _ received =>
    received.records.mapM mapRecord

end Executor

end TypedFlux
