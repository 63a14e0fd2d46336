import TypedFlux.Proofs.Draft.Acceptance
import TypedFlux.Proofs.Service.Signals

/-
  Calls that wait for a stream.

  Whatever comes in between, a call that waits ends in one of
  three ways: cancelled, with the first failure of the service,
  or with all rows.  So it never shows some of the rows, and
  what nobody cancels ends as a call that blocks.

  Key definitions include:
    * `Turn.notices`
    * `Response.Ends`
    * `Executor.settled`
    * `Executor.EndsAs`

  Key theorems include:
    * `Response.collect_ends`, `Response.receive_ends`
    * `Executor.stream_endsAs`
    * `Executor.streams_endAs`
    * `Executor.stream_eq_blocking`
-/

------------------------------------------------------------
-- How Waiting Ends
------------------------------------------------------------

namespace TypedFlux

/- Whether a request is made and then noticed. -/
def Turn.notices (cancelled : Bool) : List Turn → Bool
  | [] => false
  | .request :: turns => notices true turns
  | .notice :: turns => cancelled || notices cancelled turns
  | .silence :: turns | .answer :: turns =>
      notices cancelled turns

namespace Response

/-
  How a wait can end that takes `needed` answers of the service
  and could give all of these rows.  At its end, `waited` are
  the turns before the last answer.
-/
inductive Ends
    (all : Except QueryError (List Record))
    (needed : Nat)
    (cancelled : Bool)
    (turns : List Turn) :
    Option (Except QueryError Received) → Prop where
  | waiting :
      turns.count .answer < needed →
        Turn.notices cancelled turns = false →
          Ends all needed cancelled turns none
  | cancelled :
      cancelled = true ∨ .request ∈ turns →
        Ends all needed cancelled turns (some (.error .cancelled))
  | failed
      {error : QueryError} :
      all = .error error →
        Ends all needed cancelled turns (some (.error error))
  | finished
      {records : List Record}
      {waited rest : List Turn} :
      all = .ok records →
        turns = waited ++ .answer :: rest →
        waited.count .answer + 1 = needed →
          Ends all needed cancelled turns
            (some (.ok ⟨records,
              cancelled || waited.contains .request, rest⟩))

variable {all : Except QueryError (List Record)}
variable {needed : Nat}
variable {cancelled : Bool}
variable {turns : List Turn}
variable {result : Option (Except QueryError Received)}

/- The last answer ends the stream. -/
theorem Ends.ended
    {records : List Record}
    (hAll : all = .ok records) :
    Ends all 1 cancelled (.answer :: turns)
      (some (.ok ⟨records, cancelled, turns⟩)) := by
  have hEnds : Ends all 1 cancelled ([] ++ .answer :: turns)
      (some (.ok ⟨records,
        cancelled || [].contains Turn.request, turns⟩)) :=
    .finished hAll rfl rfl
  rwa [List.contains_nil, Bool.or_false] at hEnds

/-
  One more turn in front.  A request is kept in mind, an answer
  is one of those needed, and without a request there is nothing
  to notice.
-/
theorem Ends.cons
    {later : Bool}
    {more : Nat}
    (hEnds : Ends all needed later turns result)
    (turn : Turn)
    (hLater : later = (cancelled || turn = .request))
    (hMore : more = needed + [turn].count .answer)
    (hNotice : turn = .notice → cancelled = false) :
    Ends all more cancelled (turn :: turns) result := by
  subst hLater hMore
  have hCons : ∀ ts : List Turn, (turn :: ts).count .answer =
      ts.count .answer + [turn].count .answer := by
    intro ts
    rw [List.count_cons, List.count_singleton]
  cases hEnds with
  | waiting hCount hNotices =>
      refine .waiting ?_ ?_
      · rw [hCons]
        omega
      · cases turn with
        | request | silence | answer =>
            simpa [Turn.notices] using hNotices
        | notice =>
            simpa [Turn.notices, hNotice rfl] using hNotices
  | cancelled hRequest =>
      refine .cancelled ?_
      rcases hRequest with hBefore | hLater
      · rcases Bool.or_eq_true_iff.mp hBefore with hBefore | hTurn
        · exact .inl hBefore
        · rw [of_decide_eq_true hTurn]
          exact .inr List.mem_cons_self
      · exact .inr (.tail _ hLater)
  | failed hAll => exact .failed hAll
  | @finished records waited rest hAll hTurns hCount =>
      have hFlag : (cancelled || decide (turn = .request) ||
          waited.contains .request) =
            (cancelled || (turn :: waited).contains .request) := by
        simp [Bool.or_assoc, eq_comm]
      rw [hFlag]
      refine .finished hAll (congrArg (turn :: ·) hTurns) ?_
      rw [hCons]
      omega

/- The rows that were received come before those to come. -/
theorem mapM_row_ok
    (received : List Record)
    (record : Record)
    (rows : List (Except String Record)) :
    ((.ok record :: rows : List (Except String Record)).mapM
        row).map (received ++ ·) =
      (rows.mapM row).map ((received ++ [record]) ++ ·) := by
  rw [List.mapM_cons]
  cases hRows : rows.mapM row with
  | error e => rfl
  | ok records =>
      simp [row, Except.map, bind, Except.bind, pure,
        Except.pure]

/- A collection ends as its rows and the turns have it. -/
theorem collect_ends
    (cancelled : Bool)
    (received : List Record)
    (rows : List (Except String Record))
    (turns : List Turn) :
    Ends ((rows.mapM row).map (received ++ ·)) (rows.length + 1)
      cancelled turns (collect cancelled received rows turns) := by
  fun_induction collect cancelled received rows turns with
  | case1 cancelled received rows =>
      exact .waiting (Nat.succ_pos _) rfl
  | case2 cancelled received rows turns ih =>
      exact ih.cons .request (by simp) (by simp) (by simp)
  | case3 cancelled received rows turns ih =>
      exact ih.cons .silence (by simp) (by simp) (by simp)
  | case4 received rows turns => exact .cancelled (.inl rfl)
  | case5 cancelled received rows turns hCancelled ih =>
      exact ih.cons .notice (by simp) (by simp)
        fun _ => eq_false_of_ne_true hCancelled
  | case6 cancelled received turns =>
      exact .ended
        (congrArg Except.ok (List.append_nil received))
  | case7 cancelled received record rows turns ih =>
      rw [mapM_row_ok]
      exact ih.cons .answer (by simp) (by simp) (by simp)
  | case8 cancelled received reason rows turns =>
      exact .failed rfl

/-
  How a wait for a response ends.  It takes an answer to open
  the stream, one for each row, and one to end it.
-/
theorem receive_ends
    (response : Response)
    (cancelled : Bool)
    (turns : List Turn) :
    Ends response.all (response.rows.length + 2) cancelled turns
      (response.receive cancelled turns) := by
  fun_induction receive response cancelled turns with
  | case1 cancelled => exact .waiting (Nat.succ_pos _) rfl
  | case2 cancelled turns ih =>
      exact ih.cons .request (by simp) (by simp) (by simp)
  | case3 cancelled turns ih =>
      exact ih.cons .silence (by simp) (by simp) (by simp)
  | case4 turns => exact .cancelled (.inl rfl)
  | case5 cancelled turns hCancelled ih =>
      exact ih.cons .notice (by simp) (by simp)
        fun _ => eq_false_of_ne_true hCancelled
  | case6 cancelled turns reason hRefusal =>
      refine .failed ?_
      rw [all, hRefusal]
  | case7 cancelled turns hRefusal =>
      have hAll : (response.rows.mapM row).map ([] ++ ·) =
          response.all := by
        rw [all, hRefusal]
        exact id_map (response.rows.mapM row)
      rw [← hAll]
      exact (collect_ends cancelled [] response.rows turns).cons
        .answer (by simp) (by simp) (by simp)

/- A response fails with what the service says. -/
theorem all_error
    {response : Response}
    {error : QueryError}
    (hAll : response.all = .error error) :
    ∃ reason, error = .execution reason := by
  unfold all at hAll
  split at hAll
  next reason _ =>
    cases hAll
    exact ⟨reason, rfl⟩
  next =>
    rcases Step.mapM_eq_error hAll with ⟨r, _, hRow⟩
    cases r with
    | ok record => cases hRow
    | error reason =>
        cases hRow
        exact ⟨reason, rfl⟩

end Response

end TypedFlux

------------------------------------------------------------
-- How Calls End
------------------------------------------------------------

namespace TypedFlux

/- The service answers until its stream ends. -/
def Course.Serves
    (c : Course)
    (response : Response) : Prop :=
  response.rows.length + 2 ≤ c.turns.count .answer

namespace Executor

variable {α : Type}

/- What the service that streams answers to a draft. -/
def response?
    (x : Executor)
    (d : Except QueryError Draft) : Option Response :=
  match x.prepare .streaming d with
  | .ok (service, d) => some (service d.script x.org)
  | .error _ => none

/- What a call comes to that nobody cancels. -/
def settled
    (x : Executor)
    (delivery : Delivery)
    (d : Except QueryError Draft)
    (finish : Draft → List Record → Except QueryError α) :
    Except QueryError α := do
  let (service, d) ← x.prepare delivery d
  let records ← (service d.script x.org).all
  finish d records

/-
  A call that ends either cancelled, if somebody asked for it,
  or with what it comes to.  It ends if the service answers, and
  if a request is noticed.
-/
structure EndsAs
    (x : Executor)
    (d : Except QueryError Draft)
    (call : Course → Option (Except QueryError α))
    (settled : Except QueryError α) : Prop where
  undivided : ∀ course result, call course = some result →
    result = settled ∨
      result = .error .cancelled ∧ ¬ course.Quiet
  served : ∀ course,
    (∀ response ∈ x.response? d, course.Serves response) →
      (call course).isSome = true
  noticed : ∀ course,
    course.cancelled = true ∨
        Turn.notices false course.turns = true →
      (call course).isSome = true

/- Work on rows, perhaps after a look for requests. -/
def rechecked
    (recheck : Bool)
    (finish : Draft → List Record → Except QueryError α)
    (d : Draft)
    (received : Received) : Except QueryError α :=
  if recheck && received.course.isCancelled then
    .error .cancelled
  else finish d received.records

variable {x : Executor}
variable {course : Course}
variable {d : Except QueryError Draft}
variable {finish : Draft → List Record → Except QueryError α}

/- The service that a delivery would use. -/
def service?
    (x : Executor) : Delivery → Option Service
  | .blocking => x.blocking?
  | .streaming => x.streaming?

/- A delivery without a service is misconfigured. -/
theorem service_eq
    (x : Executor)
    (delivery : Delivery) :
    x.service delivery =
      (x.service? delivery).elim
        (.error (.misconfigured delivery)) .ok := by
  cases delivery with
  | blocking =>
      unfold service service?
      cases x.blocking? <;> rfl
  | streaming =>
      unfold service service?
      cases x.streaming? <;> rfl

theorem service_eq_ok
    {delivery : Delivery}
    {service : Service} :
    x.service delivery = .ok service ↔
      x.service? delivery = some service := by
  rw [service_eq]
  cases x.service? delivery with
  | none => simp
  | some other => simp

theorem service_eq_error
    {delivery : Delivery}
    {error : QueryError} :
    x.service delivery = .error error ↔
      x.service? delivery = none ∧
        error = .misconfigured delivery := by
  rw [service_eq]
  cases x.service? delivery with
  | none => simp [eq_comm]
  | some other => simp

/- What a stream is for, and how the wait for it ends. -/
theorem stream_cases
    (x : Executor)
    (course : Course)
    (d : Except QueryError Draft)
    (work : Draft → Received → Except QueryError α) :
    (∃ error, x.prepare .streaming d = .error error ∧
        (x.stream course d work).result =
          some (.error error)) ∨
      ∃ service d', x.prepare .streaming d = .ok (service, d') ∧
        (course.cancelled = true ∧
            (x.stream course d work).result =
              some (.error .cancelled) ∨
          course.cancelled = false ∧
            ∃ received?,
              Response.Ends (service d'.script x.org).all
                ((service d'.script x.org).rows.length + 2)
                false course.turns received? ∧
              (x.stream course d work).result =
                received?.map (· >>= work d')) := by
  unfold stream
  cases hPrepare : x.prepare .streaming d with
  | error error => exact .inl ⟨error, rfl, rfl⟩
  | ok prepared =>
      rcases prepared with ⟨service, d'⟩
      refine .inr ⟨service, d', rfl, ?_⟩
      cases hCancelled : course.cancelled with
      | true => exact .inl ⟨rfl, rfl⟩
      | false =>
          exact .inr ⟨rfl, _,
            (service d'.script x.org).receive_ends false _, rfl⟩

/- A draft that is prepared gets the answer of its service. -/
theorem response?_eq
    {service : Service}
    {d' : Draft}
    (hPrepare : x.prepare .streaming d = .ok (service, d')) :
    x.response? d = some (service d'.script x.org) := by
  rw [response?, hPrepare]

/- Its result is that of all rows, unless one of them fails. -/
theorem settled_eq
    {delivery : Delivery}
    {service : Service}
    {d' : Draft}
    (hPrepare : x.prepare delivery d = .ok (service, d')) :
    x.settled delivery d finish =
      (service d'.script x.org).all >>= finish d' := by
  rw [settled, hPrepare]
  rfl

/-
  Both kinds of streams differ in the draft they send and in
  what becomes of the records.
-/
theorem streamCollection_eq
    (x : Executor)
    (course : Course)
    (mapRecord : Record → Except QueryError α)
    (q : Query) :
    x.streamCollection course mapRecord q =
      x.stream course (x.draft q)
        (rechecked false fun _ records =>
          records.mapM mapRecord) :=
  rfl

theorem streamScalar_eq
    (x : Executor)
    (course : Course)
    (q : Query) :
    x.streamScalar course q =
      x.stream course (x.scalarDraft q)
        (rechecked true fun d records =>
          Reduction.reduceRecords d.pipeline.reduction? records) :=
  rfl

/- What the look for requests finds at the end of a stream. -/
theorem isCancelled_eq_false
    {waited rest : List Turn} :
    Course.isCancelled
        ⟨false || waited.contains .request, rest⟩ = false ↔
      .request ∉ waited ∧ rest.head? ≠ some .request := by
  simp [Course.isCancelled]

/- In a quiet course nobody asks to cancel. -/
theorem isCancelled_of_quiet
    {waited rest : List Turn}
    (hQuiet : course.Quiet)
    (hTurns : course.turns = waited ++ .answer :: rest) :
    Course.isCancelled
      ⟨false || waited.contains .request, rest⟩ = false := by
  have hRequest := hQuiet.meanwhile
  rw [hTurns] at hRequest
  refine isCancelled_eq_false.mpr ⟨?_, ?_⟩
  · intro hMem
    exact hRequest (List.mem_append_left _ hMem)
  · intro hHead
    have hMem := List.mem_of_head? hHead
    exact hRequest (List.mem_append_right _ (.tail _ hMem))

/- A call ends cancelled or with what it comes to. -/
theorem stream_undivided
    {recheck : Bool}
    {result : Except QueryError α}
    (hResult :
      (x.stream course d (rechecked recheck finish)).result =
        some result) :
    result = x.settled .streaming d finish ∨
      result = .error .cancelled ∧ ¬ course.Quiet := by
  rcases x.stream_cases course d (rechecked recheck finish) with
    ⟨error, hPrepare, hCall⟩ | ⟨service, d', hPrepare, hCase⟩
  · left
    rw [settled, hPrepare]
    exact Option.some.inj (hResult.symm.trans hCall)
  · rw [settled_eq hPrepare]
    rcases hCase with
      ⟨hCancelled, hCall⟩ | ⟨_, received?, hEnds, hCall⟩
    · right
      refine ⟨Option.some.inj (hResult.symm.trans hCall), ?_⟩
      intro hQuiet
      exact absurd hQuiet.before (ne_false_of_eq_true hCancelled)
    · have hMap := hCall.symm.trans hResult
      cases hEnds with
      | waiting => cases hMap
      | cancelled hRequest =>
          right
          refine ⟨(Option.some.inj hMap).symm, ?_⟩
          intro hQuiet
          rcases hRequest with hBefore | hRequest
          · cases hBefore
          · exact hQuiet.meanwhile hRequest
      | failed hAll =>
          left
          rw [hAll]
          exact (Option.some.inj hMap).symm
      | @finished records waited rest hAll hTurns hCount =>
          rw [hAll]
          have hWork : rechecked recheck finish d' _ = result :=
            Option.some.inj hMap
          rw [rechecked] at hWork
          split at hWork
          next hFound =>
            right
            refine ⟨hWork.symm, fun hQuiet => ?_⟩
            rw [isCancelled_of_quiet hQuiet hTurns] at hFound
            exact absurd hFound (by simp)
          next => exact .inl hWork.symm

/-
  A call that looks for requests fails before it works on the
  rows, or it has found no request.
-/
theorem stream_finishes
    {result : Except QueryError α}
    (hResult :
      (x.stream course d (rechecked true finish)).result =
        some result) :
    (∃ error, result = .error error ∧
        (x.prepare .streaming d = .error error ∨
          error = .cancelled ∨
          ∃ reason, error = .execution reason)) ∨
      course.cancelled = false ∧
        ∃ response ∈ x.response? d, ∃ waited rest,
          course.turns = waited ++ .answer :: rest ∧
          waited.count .answer = response.rows.length + 1 ∧
          .request ∉ waited ∧
          rest.head? ≠ some .request := by
  rcases x.stream_cases course d (rechecked true finish) with
    ⟨error, hPrepare, hCall⟩ | ⟨service, d', hPrepare, hCase⟩
  · cases hResult.symm.trans hCall
    exact .inl ⟨error, rfl, .inl hPrepare⟩
  · rcases hCase with
      ⟨_, hCall⟩ | ⟨hBefore, received?, hEnds, hCall⟩
    · cases hResult.symm.trans hCall
      exact .inl ⟨_, rfl, .inr (.inl rfl)⟩
    · have hMap := hCall.symm.trans hResult
      cases hEnds with
      | waiting => cases hMap
      | cancelled =>
          cases hMap
          exact .inl ⟨_, rfl, .inr (.inl rfl)⟩
      | failed hAll =>
          cases hMap
          exact .inl ⟨_, rfl, .inr (.inr (Response.all_error hAll))⟩
      | @finished records waited rest hAll hTurns hCount =>
          have hWork : rechecked true finish d' _ = result :=
            Option.some.inj hMap
          rw [rechecked] at hWork
          split at hWork
          next =>
            exact .inl ⟨_, hWork.symm, .inr (.inl rfl)⟩
          next hFound =>
            have hUnfound := isCancelled_eq_false.mp
              (eq_false_of_ne_true hFound)
            refine .inr ⟨hBefore, _, response?_eq hPrepare,
              waited, rest, hTurns, ?_, hUnfound⟩
            omega

/- A call that has no end yet waits for the service. -/
theorem stream_eq_none
    {work : Draft → Received → Except QueryError α}
    (hNone : (x.stream course d work).result = none) :
    course.cancelled = false ∧
      Turn.notices false course.turns = false ∧
      ∃ response ∈ x.response? d, ¬ course.Serves response := by
  rcases x.stream_cases course d work with
    ⟨error, hPrepare, hCall⟩ | ⟨service, d', hPrepare, hCase⟩
  · rw [hNone] at hCall
    cases hCall
  · rcases hCase with
      ⟨_, hCall⟩ | ⟨hBefore, received?, hEnds, hCall⟩
    · rw [hNone] at hCall
      cases hCall
    · have hWaiting := Option.map_eq_none_iff.mp
        (hCall.symm.trans hNone)
      subst hWaiting
      cases hEnds with
      | waiting hCount hNotices =>
          exact ⟨hBefore, hNotices, _, response?_eq hPrepare,
            Nat.not_le.mpr hCount⟩

/- A call that waits for a stream, with or without a look. -/
theorem stream_endsAs
    (x : Executor)
    (d : Except QueryError Draft)
    (recheck : Bool)
    (finish : Draft → List Record → Except QueryError α) :
    x.EndsAs d
      (fun course =>
        (x.stream course d (rechecked recheck finish)).result)
      (x.settled .streaming d finish) where
  undivided _ _ hResult := stream_undivided hResult
  served course hServes := by
    refine Option.isSome_iff_ne_none.mpr fun hNone => ?_
    rcases (stream_eq_none hNone).2.2 with ⟨response, hMem, hNot⟩
    exact hNot (hServes response hMem)
  noticed course hNoticed := by
    refine Option.isSome_iff_ne_none.mpr fun hNone => ?_
    have hUnnoticed := stream_eq_none hNone
    rcases hNoticed with hBefore | hNotices
    · rw [hUnnoticed.1] at hBefore
      cases hBefore
    · rw [hUnnoticed.2.1] at hNotices
      cases hNotices

end Executor

end TypedFlux

------------------------------------------------------------
-- Reductions of a Stream
------------------------------------------------------------

namespace TypedFlux

/- Whether a result comes out of a reduction. -/
def Reduction.Gives (result : Except QueryError Value) : Prop :=
  ∃ reduction? records,
    Reduction.reduceRecords reduction? records = result

/- The errors of a reduction: a row has no result, or no count. -/
def QueryError.IsMapping : QueryError → Prop
  | .missingColumn _ _ | .notCount _ => True
  | _ => False

namespace Reduction

variable {error : QueryError}

/-
  The total is refused at the first value that stands for no
  integer, and nowhere else.
-/
theorem total_eq_error_iff
    {sum : Int64}
    {values : List Value} :
    total sum values = .error error ↔
      ∃ v, values.find? (·.toInt64?.isNone) = some v ∧
        error = .notCount v := by
  fun_induction total sum values with
  | case1 => simp
  | case2 sum v rest n hValue ih => simp [hValue, ih]
  | case3 sum v rest hValue => simp [hValue, eq_comm]

/- What is given by a mapping is an error of mappings. -/
theorem Gives.isMapping
    (hGives : Gives (.error error)) :
    error.IsMapping := by
  rcases hGives with ⟨reduction?, records, hError⟩
  rcases Step.except_bind_eq_error.mp hError with
    hCells | ⟨values, _, hReduce⟩
  · rcases Step.mapM_eq_error hCells with ⟨r, _, hCell⟩
    unfold Record.cell at hCell
    split at hCell
    next => cases hCell
    next =>
      cases hCell
      trivial
  · cases reduction? with
    | none => cases hReduce
    | some reduction =>
        cases hTotal : total 0 values with
        | error e =>
            rw [reduce, hTotal] at hReduce
            cases hReduce
            rcases total_eq_error_iff.mp hTotal with ⟨v, _, rfl⟩
            trivial
        | ok n =>
            rw [reduce, hTotal] at hReduce
            cases hReduce

end Reduction

/- No query is refused for its rows. -/
theorem Draft.ofQuery_refused
    {bucket : String}
    {resolver : Resolver}
    {q : Query}
    {error : QueryError}
    (hError : Draft.ofQuery bucket resolver q = .error error) :
    ¬ error.IsMapping := by
  rcases ofQuery_eq_error hError with
    ⟨t, hBody⟩ | ⟨e, t, hOperators⟩
  · rcases Step.forM_eq_error hBody with
      ⟨before, c, after, u, _, hBefore, hClause⟩
    have hOpen := Drafting.clauses_open (new_open bucket) hBefore
    rcases (Drafting.clause_refused hOpen hClause).2 with
      ⟨construct, kind, rfl⟩ | ⟨rfl, _⟩
    · exact not_false
    · exact not_false
  · rcases Step.forM_eq_error hOperators with
      ⟨before, op, after, u, _, _, hOperator⟩
    rw [(Drafting.operator_eq_error hOperator).1]
    exact not_false

namespace Executor

variable {α : Type}
variable {x : Executor}
variable {q : Query}
variable {course : Course}

/- No call is refused for its rows. -/
theorem prepare_refused
    {delivery : Delivery}
    {error : QueryError}
    (hError : x.prepare delivery (x.scalarDraft q) =
      .error error) :
    ¬ error.IsMapping := by
  rcases Step.except_bind_eq_error.mp hError with
    hService | ⟨service, _, hDraft⟩
  · rw [(service_eq_error.mp hService).2]
    exact not_false
  · rcases Step.except_bind_eq_error.mp hDraft with
      hScalar | ⟨d, _, hOk⟩
    · rcases Step.except_bind_eq_error.mp hScalar with
        hQuery | ⟨d, _, hReduced⟩
      · exact Draft.ofQuery_refused hQuery
      · split at hReduced
        next =>
          cases hReduced
          exact not_false
        next => cases hReduced
    · cases hOk

/-
  Rows are reduced only if nobody has cancelled by the end of
  the stream and by the look for requests that follows.
-/
theorem streamScalar_gives
    {result : Except QueryError Value}
    (hResult : (x.streamScalar course q).result = some result)
    (hGives : Reduction.Gives result) :
    course.cancelled = false ∧
      ∃ response ∈ x.response? (x.scalarDraft q),
        ∃ waited rest,
          course.turns = waited ++ .answer :: rest ∧
          waited.count .answer = response.rows.length + 1 ∧
          .request ∉ waited ∧
          rest.head? ≠ some .request := by
  rw [streamScalar_eq] at hResult
  rcases stream_finishes hResult with
    ⟨error, rfl, hCause⟩ | hFinishes
  · have hMapping := hGives.isMapping
    rcases hCause with hPrepare | rfl | ⟨reason, rfl⟩
    · exact absurd hMapping (prepare_refused hPrepare)
    · exact absurd hMapping not_false
    · exact absurd hMapping not_false
  · exact hFinishes

/-
  Whatever comes in between, a call that waits for a stream ends
  cancelled or exactly as if nobody cancelled it.  A reduction
  is not even tried after a request.  A signal whose last handle
  is dropped never disturbs a call.
-/
theorem streams_endAs
    (x : Executor)
    (mapRecord : Record → Except QueryError α)
    (q : Query) :
    x.EndsAs (x.draft q)
        (fun course =>
          (x.streamCollection course mapRecord q).result)
        (x.settled .streaming (x.draft q) fun _ records =>
          records.mapM mapRecord) ∧
      x.EndsAs (x.scalarDraft q)
        (fun course => (x.streamScalar course q).result)
        (x.settled .streaming (x.scalarDraft q) fun d records =>
          Reduction.reduceRecords d.pipeline.reduction? records) ∧
      (∀ course result,
        (x.streamScalar course q).result = some result →
          Reduction.Gives result →
            course.cancelled = false ∧
              ∃ response ∈ x.response? (x.scalarDraft q),
                ∃ waited rest,
                  course.turns = waited ++ .answer :: rest ∧
                  waited.count .answer =
                    response.rows.length + 1 ∧
                  .request ∉ waited ∧
                  rest.head? ≠ some .request) ∧
      ∀ (c : Cancellation) (channel handle : Nat)
        (earlier later : List Cancellation.Incident),
        (c.after earlier).LastHandle channel handle →
          (c.course channel
            (earlier ++ .act (.drop handle) :: later)).Quiet := by
  refine ⟨?_, ?_, ?_, ?_⟩
  · simp only [streamCollection_eq]
    exact x.stream_endsAs (x.draft q) false _
  · simp only [streamScalar_eq]
    exact x.stream_endsAs (x.scalarDraft q) true _
  · intro course result hResult hGives
    exact streamScalar_gives hResult hGives
  · intro c channel handle earlier later hLast
    exact hLast.quiet_course later

end Executor

end TypedFlux

------------------------------------------------------------
-- Calls That Block
------------------------------------------------------------

namespace TypedFlux

namespace Executor

variable {α : Type}
variable {x : Executor}
variable {d : Except QueryError Draft}
variable {finish : Draft → List Record → Except QueryError α}

/- A blocking call gives the same result, at once. -/
theorem run_result
    (x : Executor)
    (d : Except QueryError Draft)
    (finish : Draft → List Record → Except QueryError α) :
    (x.run d finish).result = x.settled .blocking d finish := by
  unfold run settled
  cases x.prepare .blocking d <;> rfl

/- A call is prepared with a service and a draft. -/
theorem prepare_eq_ok
    {delivery : Delivery}
    {service : Service}
    {d' : Draft} :
    x.prepare delivery d = .ok (service, d') ↔
      x.service delivery = .ok service ∧ d = .ok d' := by
  unfold prepare
  cases x.service delivery with
  | error e =>
      change Except.error e = .ok (service, d') ↔ _
      simp
  | ok other =>
      cases d with
      | error e =>
          change Except.error e = .ok (service, d') ↔ _
          simp
      | ok d =>
          change Except.ok (other, d) = .ok (service, d') ↔ _
          simp

/- The draft of a scalar is that of its query. -/
theorem draft_of_scalarDraft
    {q : Query}
    {d' : Draft}
    (hScalar : x.scalarDraft q = .ok d') :
    x.draft q = .ok d' := by
  rcases Step.except_bind_eq_ok.mp hScalar with ⟨e, hDraft, hOk⟩
  split at hOk
  next => cases hOk
  next =>
    cases hOk
    exact hDraft

/- In the end it is all the same whether one waits for rows. -/
theorem stream_eq_run
    {recheck : Bool}
    {service : Service}
    {course : Course}
    (hBlocking : x.blocking? = some service)
    (hStreaming : x.streaming? = some service)
    (hQuiet : course.Quiet) :
    (x.stream course d (rechecked recheck finish)).result =
        some (x.run d finish).result ∨
      (x.stream course d (rechecked recheck finish)).result =
          none ∧
        ∃ d', d = .ok d' ∧
          ¬ course.Serves (service d'.script x.org) := by
  have hServices : x.service .streaming = x.service .blocking := by
    rw [Executor.service, Executor.service, hBlocking, hStreaming]
  cases hResult :
      (x.stream course d (rechecked recheck finish)).result with
  | none =>
      rcases (stream_eq_none hResult).2.2 with
        ⟨response, hResponse, hNot⟩
      refine .inr ⟨rfl, ?_⟩
      unfold response? at hResponse
      split at hResponse
      next other d' hPrepare =>
        rcases prepare_eq_ok.mp hPrepare with ⟨hService, rfl⟩
        rw [Executor.service, hStreaming] at hService
        cases hService
        cases hResponse
        exact ⟨d', rfl, hNot⟩
      next => cases hResponse
  | some result =>
      left
      rcases stream_undivided hResult with
        hSettled | ⟨_, hDisturbed⟩
      · rw [run_result, hSettled, settled, settled, prepare,
          prepare, hServices]
      · exact absurd hQuiet hDisturbed

/-
  If the same service is blocking and streaming, and nobody
  cancels, then a call that waits ends as the one that blocks:
  with the same rows, mapped or reduced, or with the same error.
  It may wait only as long as the service owes an answer.
-/
theorem stream_eq_blocking
    (x : Executor)
    (service : Service)
    (hBlocking : x.blocking? = some service)
    (hStreaming : x.streaming? = some service)
    (course : Course)
    (hQuiet : course.Quiet)
    (mapRecord : Record → Except QueryError α)
    (q : Query) :
    ((x.streamCollection course mapRecord q).result =
        some (x.collection mapRecord q).result ∨
      (x.streamCollection course mapRecord q).result = none ∧
        ∃ d, x.draft q = .ok d ∧
          ¬ course.Serves (service d.script x.org)) ∧
    ((x.streamScalar course q).result =
        some (x.scalar q).result ∨
      (x.streamScalar course q).result = none ∧
        ∃ d, x.draft q = .ok d ∧
          ¬ course.Serves (service d.script x.org)) := by
  rw [streamCollection_eq, streamScalar_eq]
  constructor
  · exact stream_eq_run hBlocking hStreaming hQuiet
  · rcases stream_eq_run hBlocking hStreaming hQuiet with
      hSame | ⟨hNone, d, hDraft, hOwes⟩
    · exact .inl hSame
    · exact .inr ⟨hNone, d, draft_of_scalarDraft hDraft, hOwes⟩

/- One row comes without a value, and the next one is lost. -/
def lossyService : Service :=
  fun _ _ => { rows := [.ok ⟨0, []⟩, .error "lost"] }

def lossyExecutor : Executor where
  bucket := "b"
  org := "o"
  resolver := deviceResolver
  blocking? := some lossyService
  streaming? := some lossyService

/- The row that is lost wins over the value that is missing. -/
theorem stream_eq_blocking_lossyExecutor :
    let course : Course :=
      ⟨false, [.answer, .notice, .answer, .silence, .answer,
        .answer]⟩
    let q := (Query.all "device").apply .count
    course.Quiet ∧
      (lossyExecutor.streamCollection course Record.value
          q).result =
        some (.error (.execution "lost")) ∧
      (lossyExecutor.streamScalar course q).result =
        some (.error (.execution "lost")) := by
  intro course q
  have hQuiet : course.Quiet := ⟨rfl, by decide⟩
  have hServes : ∀ d : Draft,
      course.Serves (lossyService d.script "o") := by
    intro d
    change 4 ≤ course.turns.count .answer
    decide
  have hSame := lossyExecutor.stream_eq_blocking lossyService
    rfl rfl course hQuiet Record.value q
  refine ⟨hQuiet, ?_, ?_⟩
  · rcases hSame.1 with hRows | ⟨_, d, _, hOwes⟩
    · exact hRows
    · exact absurd (hServes d) hOwes
  · rcases hSame.2 with hValue | ⟨_, d, _, hOwes⟩
    · exact hValue
    · exact absurd (hServes d) hOwes

end Executor

end TypedFlux
