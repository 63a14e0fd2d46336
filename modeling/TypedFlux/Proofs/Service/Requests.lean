import TypedFlux.Proofs.Service.Streams

/-
  What calls send.

  A call sends at most one request, to the service of its own
  kind, and it makes use of no other answer.  Nothing is sent
  for a call that cannot succeed anyway.  Services may remember
  what they were asked; still every call sends what it would
  send alone.

  Key definitions include:
    * `Call`, `Executor.perform`
    * `Executor.serving`, `Executor.sendAll`
    * `Executor.Sends`
    * `Executor.Disciplined`

  Key theorems include:
    * `Response.receive_eq_of_not_asks`
    * `Executor.run_sends`, `Executor.stream_sends`
    * `Executor.perform_sends`
    * `Executor.sendAll_disciplined`
-/

------------------------------------------------------------
-- Calls
------------------------------------------------------------

namespace TypedFlux

/- A call of an executor. -/
inductive Call : Type 1 where
  | scalar (query : Query)
  | single
      {α : Type}
      (mapRecord : Record → Except QueryError α)
      (noneIsFine : Bool)
      (query : Query)
  | collection
      {α : Type}
      (mapRecord : Record → Except QueryError α)
      (query : Query)
  | streamScalar (course : Course) (query : Query)
  | streamCollection
      {α : Type}
      (course : Course)
      (mapRecord : Record → Except QueryError α)
      (query : Query)

namespace Call

/- What a call returns, unless it fails. -/
def Result : Call → Type
  | .scalar _ | .streamScalar _ _ => Value
  | @single α _ _ _ => Option α
  | @collection α _ _ | @streamCollection α _ _ _ => List α

def query : Call → Query
  | .scalar q | .single _ _ q | .collection _ q
  | .streamScalar _ q | .streamCollection _ _ q => q

def delivery : Call → Delivery
  | .scalar _ | .single _ _ _ | .collection _ _ => .blocking
  | .streamScalar _ _ | .streamCollection _ _ _ => .streaming

/- Whether all rows are reduced to one value. -/
def isScalar : Call → Bool
  | .scalar _ | .streamScalar _ _ => true
  | .single _ _ _ | .collection _ _
  | .streamCollection _ _ _ => false

/- The course of a call that waits. -/
def course? : Call → Option Course
  | .scalar _ | .single _ _ _ | .collection _ _ => none
  | .streamScalar course _ | .streamCollection course _ _ =>
      some course

/- Whether the service is asked, as far as that is possible. -/
def asks (call : Call) : Bool :=
  call.course?.all fun course =>
    !course.cancelled && Turn.asks false course.turns

/- The draft that a call begins with. -/
def draft
    (call : Call)
    (x : Executor) : Except QueryError Draft :=
  if call.isScalar then x.scalarDraft call.query
  else x.draft call.query

end Call

/- A call that blocks has its result in the end. -/
def Outcome.ended
    {ρ : Type}
    (outcome : Outcome ρ) : Outcome (Option ρ) :=
  ⟨some outcome.result, outcome.sent⟩

namespace Executor

/- Make a call.  A call that waits may have no result yet. -/
def perform
    (x : Executor) :
    (call : Call) →
      Outcome (Option (Except QueryError call.Result))
  | .scalar q => (x.scalar q).ended
  | .single mapRecord noneIsFine q =>
      (x.single mapRecord noneIsFine q).ended
  | .collection mapRecord q => (x.collection mapRecord q).ended
  | .streamScalar course q => x.streamScalar course q
  | .streamCollection course mapRecord q =>
      x.streamCollection course mapRecord q

/- Other answers, from services of the same kinds. -/
def serving
    (x : Executor)
    (answers : Delivery → Service) : Executor :=
  { x with
    blocking? := x.blocking?.map fun _ => answers .blocking
    streaming? := x.streaming?.map fun _ => answers .streaming }

/-
  What is sent for one call after the other.  The services may
  answer by all that they were sent before.
-/
def sendAll
    (x : Executor)
    (services : List Request → Delivery → Service)
    (past : List Request) : List Call → List Request
  | [] => []
  | call :: calls =>
      let sent := ((x.serving (services past)).perform call).sent
      sent ++ sendAll x services (past ++ sent) calls

end Executor

end TypedFlux

------------------------------------------------------------
-- Requests of One Call
------------------------------------------------------------

namespace TypedFlux

/- A service that is not asked makes no difference. -/
theorem Response.receive_eq_of_not_asks
    {cancelled : Bool}
    {turns : List Turn}
    (hAsks : Turn.asks cancelled turns = false)
    (response other : Response) :
    response.receive cancelled turns =
      other.receive cancelled turns := by
  fun_induction Turn.asks cancelled turns with
  | case1 => rfl
  | case2 cancelled turns ih => exact ih hAsks
  | case3 turns => rfl
  | case4 cancelled turns hCancelled ih =>
      rw [receive, receive, if_neg hCancelled, if_neg hCancelled]
      exact ih hAsks
  | case5 | case6 => cases hAsks

namespace Executor

variable {α β : Type}
variable {x : Executor}
variable {delivery : Delivery}
variable {d : Except QueryError Draft}

/- The answers are those of the services, where they are asked. -/
def AnswersAlike
    (x : Executor)
    (answers : Delivery → Service)
    (sent : List Request) : Prop :=
  ∀ request ∈ sent,
    ∀ service ∈ x.service? request.delivery,
      answers request.delivery request.script request.org =
        service request.script request.org

/-
  How a call for a draft depends on the services.  It sends the
  script of the draft or nothing, and what it was not sent for
  makes no difference.
-/
structure Sends
    (x : Executor)
    (delivery : Delivery)
    (draft : Executor → Except QueryError Draft)
    (asks : Bool)
    (call : Executor →
      Outcome (Option (Except QueryError α))) : Prop where
  unconfigured :
    x.service? delivery = none →
      call x = ⟨some (.error (.misconfigured delivery)), []⟩
  refused : ∀ service error,
    x.service? delivery = some service →
      draft x = .error error →
        call x = ⟨some (.error error), []⟩
  sent : ∀ service d',
    x.service? delivery = some service → draft x = .ok d' →
      (call x).sent =
        if asks then [⟨delivery, x.org, d'.script⟩] else []
  used : ∀ answers,
    x.AnswersAlike answers (call x).sent →
      call (x.serving answers) = call x

/-
  Without its service a call fails before anything is drafted.
-/
theorem prepare_unconfigured
    (hService : x.service? delivery = none) :
    x.prepare delivery d = .error (.misconfigured delivery) := by
  rw [prepare, service_eq, hService]
  rfl

theorem prepare_configured
    {service : Service}
    (hService : x.service? delivery = some service) :
    x.prepare delivery d = d.map (service, ·) := by
  rw [prepare, service_eq, hService]
  cases d <;> rfl

/- Other answers do not change what is configured. -/
theorem serving_service?
    (x : Executor)
    (answers : Delivery → Service)
    (delivery : Delivery) :
    (x.serving answers).service? delivery =
      (x.service? delivery).map fun _ => answers delivery := by
  cases delivery <;> rfl

/- So they do not change what is sent. -/
theorem serving_prepare
    (x : Executor)
    (answers : Delivery → Service)
    (delivery : Delivery)
    (d : Except QueryError Draft) :
    (x.serving answers).prepare delivery d =
      (x.prepare delivery d).map fun prepared =>
        (answers delivery, prepared.2) := by
  have hServing := x.serving_service? answers delivery
  cases hService : x.service? delivery with
  | none =>
      rw [hService] at hServing
      rw [prepare_unconfigured hService,
        prepare_unconfigured hServing]
      rfl
  | some service =>
      rw [hService] at hServing
      rw [prepare_configured hService,
        prepare_configured hServing]
      cases d <;> rfl

/-
  A call that fails as its preparation does, and else is a reply
  to the service.  What was not asked for is not replied to.
-/
theorem Sends.of_reply
    {draft : Executor → Except QueryError Draft}
    {asks : Bool}
    {call : Executor → Outcome (Option (Except QueryError α))}
    (hDraft : ∀ answers, draft (x.serving answers) = draft x)
    (reply : Response → Draft → Option (Except QueryError α))
    (hError : ∀ y error,
      prepare y delivery (draft y) = .error error →
        call y = ⟨some (.error error), []⟩)
    (hOk : ∀ y service d',
      prepare y delivery (draft y) = .ok (service, d') →
        call y = ⟨reply (service d'.script y.org) d',
          if asks then [⟨delivery, y.org, d'.script⟩] else []⟩)
    (hReply : asks = false → ∀ response other d',
      reply response d' = reply other d') :
    x.Sends delivery draft asks call where
  unconfigured hService :=
    hError x _ (prepare_unconfigured hService)
  refused service error hService hRefused := by
    refine hError x error ?_
    rw [prepare_configured hService, hRefused]
    rfl
  sent service d' hService hTaken := by
    rw [hOk x service d']
    rw [prepare_configured hService, hTaken]
    rfl
  used answers hAlike := by
    have hServing : (x.serving answers).prepare delivery
        (draft (x.serving answers)) =
          (x.prepare delivery (draft x)).map fun prepared =>
            (answers delivery, prepared.2) := by
      rw [hDraft answers]
      exact x.serving_prepare answers delivery (draft x)
    cases hPrepare : x.prepare delivery (draft x) with
    | error error =>
        rw [hPrepare] at hServing
        rw [hError x error hPrepare, hError _ error hServing]
    | ok prepared =>
        rcases prepared with ⟨service, d'⟩
        rw [hPrepare] at hServing
        rw [hOk x service d' hPrepare] at hAlike ⊢
        rw [hOk _ (answers delivery) d' hServing]
        have hSame : reply (answers delivery d'.script x.org) d' =
            reply (service d'.script x.org) d' := by
          cases asks with
          | false => exact hReply rfl _ _ d'
          | true =>
              have hService := service_eq_ok.mp
                (prepare_eq_ok.mp hPrepare).1
              rw [hAlike _ List.mem_cons_self service hService]
        exact congrArg (Outcome.mk · _) hSame

variable {draft : Executor → Except QueryError Draft}

/- A blocking call sends its draft once. -/
theorem run_sends
    (hDraft : ∀ answers, draft (x.serving answers) = draft x)
    (finish : Draft → List Record → Except QueryError α) :
    x.Sends .blocking draft true
      fun y => (y.run (draft y) finish).ended := by
  refine .of_reply hDraft
    (fun response d' => some (response.all >>= finish d'))
    ?_ ?_ ?_
  · intro y error hPrepare
    rw [run, hPrepare]
    rfl
  · intro y service d' hPrepare
    rw [run, hPrepare]
    rfl
  · intro hAsks
    cases hAsks

/- A stream sends it once, unless it is cancelled before. -/
theorem stream_sends
    (hDraft : ∀ answers, draft (x.serving answers) = draft x)
    (course : Course)
    (work : Draft → Received → Except QueryError α) :
    x.Sends .streaming draft
      (!course.cancelled && Turn.asks false course.turns)
      fun y => y.stream course (draft y) work := by
  refine .of_reply hDraft
    (fun response d' =>
      if course.cancelled then some (.error .cancelled)
      else
        (response.receive false course.turns).map
          (· >>= work d'))
    ?_ ?_ ?_
  · intro y error hPrepare
    rw [stream, hPrepare]
  · intro y service d' hPrepare
    rw [stream, hPrepare]
    cases course.cancelled <;> rfl
  · intro hAsks response other d'
    cases hCancelled : course.cancelled with
    | true => rfl
    | false =>
        rw [hCancelled] at hAsks
        rw [Response.receive_eq_of_not_asks hAsks response other]

/- What is done with the result sends nothing. -/
theorem Sends.map
    {asks : Bool}
    {call : Executor → Outcome (Option (Except QueryError α))}
    (hSends : x.Sends delivery draft asks call)
    (f : Except QueryError α → Except QueryError β)
    (hError : ∀ error, f (.error error) = .error error) :
    x.Sends delivery draft asks fun y =>
      ⟨(call y).result.map f, (call y).sent⟩ where
  unconfigured hService := by
    rw [hSends.unconfigured hService, Option.map_some, hError]
  refused service error hService hDraft := by
    rw [hSends.refused service error hService hDraft,
      Option.map_some, hError]
  sent := hSends.sent
  used answers hAlike := by
    rw [hSends.used answers hAlike]

/- How each call depends on the services. -/
theorem perform_sends
    (x : Executor)
    (call : Call) :
    x.Sends call.delivery call.draft call.asks
      fun y => y.perform call := by
  have hDraft : ∀ answers,
      call.draft (x.serving answers) = call.draft x :=
    fun _ => rfl
  cases call with
  | scalar q => exact run_sends hDraft _
  | single mapRecord noneIsFine q =>
      have hAll := run_sends hDraft fun _ records =>
        records.mapM mapRecord
      exact hAll.map (· >>= only noneIsFine) fun _ => rfl
  | collection mapRecord q => exact run_sends hDraft _
  | streamScalar course q => exact stream_sends hDraft course _
  | streamCollection course mapRecord q =>
      exact stream_sends hDraft course _

end Executor

end TypedFlux

------------------------------------------------------------
-- Requests of Many Calls
------------------------------------------------------------

namespace TypedFlux

/- A draft is reduced if and only if its rows are counted. -/
theorem Draft.reduction?_ofQuery
    {bucket : String}
    {resolver : Resolver}
    {q : Query}
    {d : Draft}
    (hDraft : Draft.ofQuery bucket resolver q = .ok d) :
    d.pipeline.reduction?.isSome = q.operators.any (·.isCount) := by
  rcases ofQuery_follows hDraft with ⟨plan, hPipeline, hOutline⟩
  rw [hPipeline]
  exact congrArg Outline.counted hOutline

namespace Executor

variable {α : Type}
variable {x : Executor}
variable {call : Call}

/-
  What a call sends, and what it does without a service, a draft
  or a reduction.
-/
structure Disciplined
    (x : Executor)
    (call : Call) : Prop where
  atMostOne : (x.perform call).sent.length ≤ 1
  own : ∀ request ∈ (x.perform call).sent,
    ∃ d, x.draft call.query = .ok d ∧
      request = ⟨call.delivery, x.org, d.script⟩
  unconfigured :
    x.service? call.delivery = none →
      x.perform call =
        ⟨some (.error (.misconfigured call.delivery)), []⟩
  untranslated : ∀ service error,
    x.service? call.delivery = some service →
      x.draft call.query = .error error →
        x.perform call = ⟨some (.error error), []⟩
  unreduced : ∀ service d,
    x.service? call.delivery = some service →
      x.draft call.query = .ok d →
        call.isScalar = true →
        (∀ op ∈ call.query.operators, op.isCount = false) →
          x.perform call = ⟨some (.error .notScalar), []⟩
  cancelled : ∀ course ∈ call.course?,
    course.cancelled = true → (x.perform call).sent = []
  asked : ∀ service d,
    x.service? call.delivery = some service →
      x.draft call.query = .ok d →
        (call.isScalar = true →
          ∃ op ∈ call.query.operators, op.isCount = true) →
        call.asks = true →
          (x.perform call).sent =
            [⟨call.delivery, x.org, d.script⟩]
  used : ∀ answers,
    x.AnswersAlike answers (x.perform call).sent →
      (x.serving answers).perform call = x.perform call

/- Only what is counted can be reduced. -/
theorem scalarDraft_eq
    {q : Query}
    {d : Draft}
    (hDraft : x.draft q = .ok d) :
    x.scalarDraft q =
      if q.operators.any (·.isCount) then .ok d
      else .error .notScalar := by
  rw [← Draft.reduction?_ofQuery hDraft, scalarDraft, hDraft]
  change (if _ then _ else _) = _
  cases d.pipeline.reduction? <;> rfl

/- A query that is not translated is not sent. -/
theorem draft_eq_error
    {error : QueryError}
    (hDraft : x.draft call.query = .error error) :
    call.draft x = .error error := by
  unfold Call.draft
  split
  next =>
    rw [scalarDraft, hDraft]
    rfl
  next => exact hDraft

/- A scalar is sent if it counts. -/
theorem draft_eq_ok
    {d : Draft}
    (hDraft : x.draft call.query = .ok d)
    (hCounted : call.isScalar = true →
      call.query.operators.any (·.isCount) = true) :
    call.draft x = .ok d := by
  unfold Call.draft
  split
  next hScalar =>
    rw [scalarDraft_eq hDraft, if_pos (hCounted hScalar)]
  next => exact hDraft

theorem draft_of_draft_eq_ok
    {d : Draft}
    (hDraft : call.draft x = .ok d) :
    x.draft call.query = .ok d := by
  unfold Call.draft at hDraft
  split at hDraft
  next => exact draft_of_scalarDraft hDraft
  next => exact hDraft

/- Either nothing is sent, or the script of the draft is. -/
theorem sent_cases
    (x : Executor)
    (call : Call) :
    (x.perform call).sent = [] ∨
      call.asks = true ∧
        ∃ d, x.draft call.query = .ok d ∧
          (x.perform call).sent =
            [⟨call.delivery, x.org, d.script⟩] := by
  have hSends := x.perform_sends call
  cases hService : x.service? call.delivery with
  | none =>
      rw [hSends.unconfigured hService]
      exact .inl rfl
  | some service =>
      cases hDraft : call.draft x with
      | error error =>
          rw [hSends.refused service error hService hDraft]
          exact .inl rfl
      | ok d =>
          have hSent := hSends.sent service d hService hDraft
          cases hAsks : call.asks with
          | false =>
              rw [hAsks] at hSent
              exact .inl hSent
          | true =>
              rw [hAsks] at hSent
              exact .inr ⟨rfl, d, draft_of_draft_eq_ok hDraft,
                hSent⟩

/- Every call sends at most what its query is translated to. -/
theorem disciplined
    (x : Executor)
    (call : Call) :
    x.Disciplined call := by
  have hSends := x.perform_sends call
  have hCases := x.sent_cases call
  refine ⟨?_, ?_, hSends.unconfigured, ?_, ?_, ?_, ?_,
    hSends.used⟩
  · rcases hCases with hNone | ⟨_, d, _, hSent⟩
    · rw [hNone]
      exact Nat.zero_le 1
    · rw [hSent]
      exact Nat.le_refl 1
  · intro request hRequest
    rcases hCases with hNone | ⟨_, d, hDraft, hSent⟩
    · rw [hNone] at hRequest
      cases hRequest
    · rw [hSent] at hRequest
      exact ⟨d, hDraft, List.mem_singleton.mp hRequest⟩
  · intro service error hService hDraft
    exact hSends.refused service error hService
      (draft_eq_error hDraft)
  · intro service d hService hDraft hScalar hUncounted
    refine hSends.refused service .notScalar hService ?_
    have hNone : call.query.operators.any (·.isCount) = false :=
      List.any_eq_false.mpr fun op hOp =>
        ne_true_of_eq_false (hUncounted op hOp)
    rw [Call.draft, if_pos hScalar, scalarDraft_eq hDraft, hNone]
    rfl
  · intro course hCourse hCancelled
    rcases hCases with hNone | ⟨hAsks, _⟩
    · exact hNone
    · rw [Call.asks, hCourse] at hAsks
      simp [hCancelled] at hAsks
  · intro service d hService hDraft hCounted hAsks
    have hTaken : call.draft x = .ok d :=
      draft_eq_ok hDraft fun hScalar =>
        List.any_eq_true.mpr (hCounted hScalar)
    have hSent := hSends.sent service d hService hTaken
    rwa [hAsks] at hSent

/- No answer changes what a call sends. -/
theorem serving_sent
    (x : Executor)
    (answers : Delivery → Service)
    (call : Call) :
    ((x.serving answers).perform call).sent =
      (x.perform call).sent := by
  have hSends := x.perform_sends call
  have hServing := (x.serving answers).perform_sends call
  have hServices := x.serving_service? answers call.delivery
  cases hService : x.service? call.delivery with
  | none =>
      rw [hService] at hServices
      rw [hSends.unconfigured hService,
        hServing.unconfigured hServices]
  | some service =>
      rw [hService] at hServices
      cases hDraft : call.draft x with
      | error error =>
          rw [hSends.refused service error hService hDraft,
            hServing.refused _ error hServices hDraft]
      | ok d =>
          rw [hSends.sent service d hService hDraft,
            hServing.sent _ d hServices hDraft]
          rfl

/- Past requests do not change later ones. -/
theorem sendAll_eq
    (x : Executor)
    (services : List Request → Delivery → Service)
    (past : List Request)
    (calls : List Call) :
    x.sendAll services past calls =
      calls.flatMap fun call => (x.perform call).sent := by
  induction calls generalizing past with
  | nil => rfl
  | cons call calls ih =>
      rw [sendAll, List.flatMap_cons, ih, serving_sent]

/-
  Whatever is called, and whatever the services remember: calls
  send what each of them sends alone, and each sends at most one
  request, its own script to its own service.
-/
theorem sendAll_disciplined
    (x : Executor)
    (services : List Request → Delivery → Service)
    (calls : List Call) :
    x.sendAll services [] calls =
        calls.flatMap (fun call => (x.perform call).sent) ∧
      ∀ past, ∀ call ∈ calls,
        (x.serving (services past)).Disciplined call :=
  ⟨x.sendAll_eq services [] calls,
    fun past call _ => (x.serving (services past)).disciplined call⟩

end Executor

end TypedFlux
