import TypedFlux.Proofs.Draft.Failures
import TypedFlux.Proofs.Draft.Meaning

/-
  Parts that are written to a buffer.

  What is inside a part is written aside first, so a part that
  fails leaves no trace in the buffer, however deep inside it
  the failure is.  Which parts fail can be told from the parts
  that are written: the first that no script can express is the
  one that fails.

  Key definitions include:
    * `Part.positions`, `Part.refusal?`
    * `Writing.Emits`, `Writing.Tries`

  Key theorems include:
    * `Part.error?_text`
    * `Writing.Tries.enclosed`
    * `Part.emits_write`
    * `Part.appendTo_cases`
-/

------------------------------------------------------------
-- Parts that are Written
------------------------------------------------------------

namespace TypedFlux

namespace Part

mutual

/-
  The parts that are written with a part, each in front of those
  inside it.  An argument without a parameter is not written.
-/
def positions : Part → List Part
  | .binary op left right =>
      .binary op left right
        :: (positions left ++ positions right)
  | .call function args =>
      .call function args
        :: argPositions function.parameters args
  | .timeBound left right op =>
      .timeBound left right op
        :: (boundPositions left ++ boundPositions right)
  | part => [part]

/- The parts that are written with a bound. -/
def boundPositions : Option Part → List Part
  | none => []
  | some bound => positions bound

/- The parts that are written with arguments. -/
def argPositions : List String → List Part → List Part
  | _ :: parameters, arg :: args =>
      positions arg ++ argPositions parameters args
  | _, _ => []

end

/-
  The error of a part that no script can express, whatever is
  inside it.
-/
def refusal? : Part → Option QueryError
  | .blank => some (.unsupported "<untranslated node>" "NoOp")
  | .binary op _ _ =>
      if op.token? = none then
        some (.unsupported op.name "Binary")
      else none
  | .timeBound left right op =>
      if left.isSome = right.isSome then
        some (.unsupported op.name "TimeRange")
      else if op.token? = none then
        some (.unsupported op.name "Binary")
      else none
  | .literal _ | .column _ _ | .call _ _ | .indexed _ _ => none

/- Parts that no script can express, whatever is inside them. -/
inductive Refused : Part → Prop where
  | blank : Refused .blank
  | binary
      {op : BinaryOp}
      {left right : Part}
      (hToken : op.token? = none) :
      Refused (.binary op left right)
  | sides
      {op : BinaryOp}
      {left right : Option Part}
      (hSides : left.isSome = right.isSome) :
      Refused (.timeBound left right op)
  | bound
      {op : BinaryOp}
      {left right : Option Part}
      (hToken : op.token? = none) :
      Refused (.timeBound left right op)

/- A refused part is one with an error of its own. -/
theorem refused_iff
    {p : Part} :
    p.Refused ↔ p.refusal? ≠ none := by
  constructor
  · intro hRefused
    cases hRefused with
    | blank => simp [refusal?]
    | binary hToken => simp [refusal?, hToken]
    | sides hSides => simp [refusal?, hSides]
    | bound hToken =>
        simp only [refusal?, if_pos hToken]
        split <;> exact Option.some_ne_none _
  · intro hSome
    cases p with
    | blank => exact .blank
    | binary op left right =>
        exact .binary (by simpa [refusal?] using hSome)
    | timeBound left right op =>
        by_cases hSides : left.isSome = right.isSome
        · exact .sides hSides
        · exact .bound (by simpa [refusal?, hSides] using hSome)
    | literal name => exact absurd rfl hSome
    | column role name => exact absurd rfl hSome
    | call function args => exact absurd rfl hSome
    | indexed key accessor => exact absurd rfl hSome

end Part

end TypedFlux

------------------------------------------------------------
-- Texts that Fail
------------------------------------------------------------

namespace TypedFlux

namespace Step

variable {ε α β : Type}

/- The error, if there is one. -/
def error? : Except ε α → Option ε
  | .ok _ => none
  | .error e => some e

theorem error?_eq_some
    {x : Except ε α}
    {e : ε} :
    error? x = some e ↔ x = .error e := by
  cases x with
  | ok a => simp [error?]
  | error e' => simp [error?]

/- The first error of a sequence is the one that counts. -/
theorem error?_bind
    {x : Except ε α}
    {f : α → Except ε β}
    {next? : Option ε}
    (hNext : ∀ a, error? (f a) = next?) :
    error? (x >>= f) = (error? x).or next? := by
  cases x with
  | ok a => exact hNext a
  | error e => rfl

/- What is done with a text does not change the error. -/
theorem error?_bind_ok
    {x : Except ε α}
    {f : α → β} :
    error? (do let a ← x; .ok (f a)) = error? x := by
  cases x with
  | ok a => rfl
  | error e => rfl

end Step

namespace Part

open Step

/- The text of an operation, from those of its operands. -/
def operationText
    (op : BinaryOp)
    (left right : Except QueryError String) :
    Except QueryError String :=
  match op.token? with
  | none => .error (.unsupported op.name "Binary")
  | some token => do
      let l ← left
      let r ← right
      .ok (operation l token r)

/-
  An operation and a bound in time are written alike, by their
  operands.
-/
theorem text_binary
    (op : BinaryOp)
    (left right : Part) :
    (Part.binary op left right).text =
      operationText op left.text right.text := by
  cases hToken : op.token? with
  | none => simp only [text, operationText, hToken]
  | some token => simp only [text, operationText, hToken]

/- A bound is an operand beside the time of a row. -/
theorem text_timeBound_left
    (op : BinaryOp)
    (bound : Part) :
    (Part.timeBound (some bound) none op).text =
      operationText op bound.text (.ok timeAccessor) := by
  cases hToken : op.token? with
  | none => simp only [text, operationText, hToken]
  | some token =>
      simp only [text, operationText, hToken]
      rfl

theorem text_timeBound_right
    (op : BinaryOp)
    (bound : Part) :
    (Part.timeBound none (some bound) op).text =
      operationText op (.ok timeAccessor) bound.text := by
  cases hToken : op.token? with
  | none => simp only [text, operationText, hToken]
  | some token =>
      simp only [text, operationText, hToken]
      rfl

/- An operator without a token fails before its operands. -/
theorem error?_operationText
    (op : BinaryOp)
    (left right : Except QueryError String) :
    error? (operationText op left right) =
      if op.token? = none then
        some (.unsupported op.name "Binary")
      else (error? left).or (error? right) := by
  unfold operationText
  cases op.token? with
  | none => rfl
  | some token =>
      have hRight : ∀ l, error? (do
          let r ← right
          .ok (operation l token r)) = error? right :=
        fun _ => error?_bind_ok
      exact error?_bind hRight

/- A part comes in front of what is inside it. -/
theorem findSome?_cons_if
    {p : Part}
    {ps : List Part}
    {c : Prop}
    [Decidable c]
    {e : QueryError}
    (hOwn : p.refusal? = if c then some e else none) :
    (p :: ps).findSome? refusal? =
      if c then some e else ps.findSome? refusal? := by
  rw [List.findSome?_cons, hOwn]
  by_cases hRefused : c
  · rw [if_pos hRefused, if_pos hRefused]
  · rw [if_neg hRefused, if_neg hRefused]

/-
  Arguments fail with the first refusal among those that have
  a parameter.
-/
theorem error?_argTexts
    {args : List Part}
    (hEach : ∀ arg ∈ args,
      error? arg.text = arg.positions.findSome? refusal?)
    (parameters : List String) :
    error? (argTexts parameters args) =
      (argPositions parameters args).findSome? refusal? := by
  induction args generalizing parameters with
  | nil =>
      cases parameters with
      | nil => rfl
      | cons parameter parameters => rfl
  | cons arg args ih =>
      cases parameters with
      | nil => rfl
      | cons parameter parameters =>
          rw [List.forall_mem_cons] at hEach
          have hRest : ∀ first, error? (do
              let rest ← argTexts parameters args
              .ok ((parameter ++ ": " ++ first) :: rest)) =
                (argPositions parameters args).findSome?
                  refusal? := by
            intro first
            rw [error?_bind_ok, ih hEach.2]
          rw [argTexts, error?_bind hRest, argPositions,
            List.findSome?_append, hEach.1]

/- A bound fails with the first refusal among its operands. -/
theorem error?_timeBound
    {left right : Option Part}
    (op : BinaryOp)
    (hLeft : ∀ bound ∈ left, error? bound.text =
      bound.positions.findSome? refusal?)
    (hRight : ∀ bound ∈ right, error? bound.text =
      bound.positions.findSome? refusal?) :
    error? (Part.timeBound left right op).text =
      (Part.timeBound left right op).positions.findSome?
        refusal? := by
  cases left with
  | none =>
      cases right with
      | none => rfl
      | some bound =>
          rw [text_timeBound_right, error?_operationText,
            hRight bound rfl, positions, boundPositions,
            boundPositions, List.nil_append,
            findSome?_cons_if rfl]
          rfl
  | some bound =>
      cases right with
      | none =>
          rw [text_timeBound_left, error?_operationText,
            hLeft bound rfl, positions, boundPositions,
            boundPositions, List.append_nil,
            findSome?_cons_if rfl]
          exact congrArg _ (Option.or_none)
      | some other => rfl

/- The first part that no script can express fails. -/
theorem error?_text
    (p : Part) :
    error? p.text = p.positions.findSome? refusal? := by
  induction p with
  | literal name => rfl
  | column role name => rfl
  | binary op left right ihLeft ihRight =>
      rw [text_binary, error?_operationText, ihLeft, ihRight,
        positions, findSome?_cons_if rfl,
        List.findSome?_append]
  | call function args ih =>
      rw [text, error?_bind_ok,
        error?_argTexts ih function.parameters, positions]
      rfl
  | indexed key accessor => rfl
  | timeBound left right op ihLeft ihRight =>
      exact error?_timeBound op ihLeft ihRight
  | blank => rfl

end Part

end TypedFlux

------------------------------------------------------------
-- Steps that Write
------------------------------------------------------------

namespace TypedFlux

namespace Writing

/- A step writes a text, or it fails and writes nothing. -/
def Emits
    (step : Writing Unit) :
    Except QueryError String → Prop
  | .ok text =>
      ∀ buffer, step buffer = (.ok (), buffer ++ text)
  | .error e => ∀ buffer, step buffer = (.error e, buffer)

/- A step writes a text, or it fails and may have written some. -/
def Tries
    (step : Writing Unit) :
    Except QueryError String → Prop
  | .ok text =>
      ∀ buffer, step buffer = (.ok (), buffer ++ text)
  | .error e => ∀ buffer, ∃ rest, step buffer = (.error e, rest)

variable {step next : Writing Unit}
variable {result other : Except QueryError String}

/- The steps that write, and what they give. -/
theorem emits_put
    (s : String) :
    Emits (put s) (.ok s) :=
  fun _ => rfl

theorem emits_pure :
    Emits (pure ()) (.ok "") := by
  intro buffer
  rw [String.append_empty]
  rfl

theorem emits_throw
    (e : QueryError) :
    Emits (throw e) (.error e) :=
  fun _ => rfl

/- A step that fails may also have written nothing. -/
theorem Emits.tries
    (hEmits : Emits step result) :
    Tries step result := by
  cases result with
  | ok text => exact hEmits
  | error e => exact fun buffer => ⟨buffer, hEmits buffer⟩

/- Of two steps both write, or the first failure counts. -/
theorem Tries.bind
    (hFirst : Tries step result)
    (hNext : Tries next other) :
    Tries (do step; next) (do
      let s ← result
      let t ← other
      .ok (s ++ t)) := by
  cases result with
  | error e =>
      intro buffer
      obtain ⟨rest, hStep⟩ := hFirst buffer
      exact ⟨rest, Step.bind_eq_error.mpr (.inl hStep)⟩
  | ok s =>
      have hSame :
          ∀ buffer,
            (do step; next : Writing Unit) buffer =
              next (buffer ++ s) :=
        fun buffer => Step.bind_of_ok (hFirst buffer)
      cases other with
      | error e =>
          intro buffer
          rw [hSame]
          exact hNext (buffer ++ s)
      | ok t =>
          intro buffer
          rw [hSame, hNext (buffer ++ s), String.append_assoc]

/- What is written aside does not reach the buffer. -/
theorem Tries.aside
    (hTries : Tries step result)
    (buffer : String) :
    aside step buffer = (result, buffer) := by
  have hRun :
      Writing.aside step buffer =
        ((step "").1.map fun _ => (step "").2, buffer) :=
    rfl
  cases result with
  | error e =>
      obtain ⟨rest, hStep⟩ := hTries ""
      rw [hRun, hStep]
      rfl
  | ok s =>
      rw [hRun, hTries "", String.empty_append]
      rfl

/- Nothing is written between parentheses unless all is. -/
theorem Tries.enclosed
    (hTries : Tries step result)
    (opening : String) :
    Emits (enclosed opening step)
      (result.map fun s => opening ++ s ++ ")") := by
  cases result with
  | error e =>
      intro buffer
      exact Step.bind_eq_error.mpr (.inl (hTries.aside buffer))
  | ok s =>
      intro buffer
      rw [Writing.enclosed, Step.bind_of_ok (hTries.aside buffer)]
      change (Except.ok (), buffer ++ opening ++ s ++ ")") =
        (.ok (), buffer ++ (opening ++ s ++ ")"))
      simp only [String.append_assoc]

/- A text in front is written unless what follows fails. -/
theorem Tries.put_bind
    (hNext : Tries next other)
    (s : String) :
    Tries (do put s; next) (other.map fun t => s ++ t) := by
  have hBoth := (emits_put s).tries.bind hNext
  cases other with
  | ok t => exact hBoth
  | error e => exact hBoth

/- An operation is written as its text is. -/
theorem Emits.operation
    {left right : Writing Unit}
    {l r : Except QueryError String}
    (hLeft : Emits left l)
    (hRight : Emits right r)
    (op : BinaryOp) :
    Emits (operation op left right)
      (Part.operationText op l r) := by
  unfold Writing.operation Part.operationText
  cases op.token? with
  | none => exact emits_throw _
  | some token =>
      have hAfter := ((hRight.tries.put_bind " ").put_bind
        token).put_bind " "
      have hWritten := (hLeft.tries.bind hAfter).enclosed "("
      cases l with
      | error e => exact hWritten
      | ok l =>
          cases r with
          | error e => exact hWritten
          | ok r =>
              intro buffer
              refine (hWritten buffer).trans ?_
              simp only [Part.operation, String.append_assoc]

end Writing

end TypedFlux

------------------------------------------------------------
-- Parts as Written
------------------------------------------------------------

namespace TypedFlux

namespace Part

open Writing

/- Texts with commas between them and a lead in front. -/
def ledBy (lead : String) : List String → String
  | [] => ""
  | s :: rest => lead ++ ", ".intercalate (s :: rest)

/- Only the first argument has no comma in front. -/
theorem ledBy_cons
    (lead s : String)
    (rest : List String) :
    ledBy lead (s :: rest) = lead ++ (s ++ ledBy ", " rest) := by
  cases rest with
  | nil => simp [ledBy]
  | cons t rest =>
      rw [ledBy, ledBy, String.intercalate_cons_cons]
      simp only [String.append_assoc]

/- Arguments are written as their texts, unless one fails. -/
theorem tries_writeArgs
    {args : List Part}
    (hEach : ∀ arg ∈ args, Emits arg.write arg.text)
    (lead : String)
    (parameters : List String) :
    Tries (writeArgs lead parameters args)
      ((argTexts parameters args).map (ledBy lead)) := by
  induction args generalizing lead parameters with
  | nil =>
      cases parameters with
      | nil => exact emits_pure.tries
      | cons parameter parameters => exact emits_pure.tries
  | cons arg args ih =>
      cases parameters with
      | nil => exact emits_pure.tries
      | cons parameter parameters =>
          rw [List.forall_mem_cons] at hEach
          have hRest := ih hEach.2 ", " parameters
          have hArg := hEach.1.tries.bind hRest
          have hAll := ((hArg.put_bind ": ").put_bind
            parameter).put_bind lead
          rw [writeArgs, argTexts]
          cases hText : arg.text with
          | error e =>
              rw [hText] at hAll
              exact hAll
          | ok first =>
              rw [hText] at hAll
              cases hTexts : argTexts parameters args with
              | error e =>
                  rw [hTexts] at hAll
                  exact hAll
              | ok texts =>
                  rw [hTexts] at hAll
                  intro buffer
                  rw [hAll buffer]
                  change _ = (Except.ok (),
                    buffer ++ ledBy lead
                      ((parameter ++ ": " ++ first) :: texts))
                  rw [ledBy_cons]
                  simp only [String.append_assoc]

/- A call is written as its text is. -/
theorem emits_call
    {args : List Part}
    (hEach : ∀ arg ∈ args, Emits arg.write arg.text)
    (function : StringFunction) :
    Emits (Part.call function args).write
      (Part.call function args).text := by
  have hWritten := (tries_writeArgs hEach ""
    function.parameters).enclosed (function.fluxName ++ "(")
  rw [write, text]
  cases hTexts : argTexts function.parameters args with
  | error e =>
      rw [hTexts] at hWritten
      exact hWritten
  | ok texts =>
      rw [hTexts] at hWritten
      cases texts with
      | nil => exact hWritten
      | cons s rest =>
          intro buffer
          rw [hWritten buffer, ledBy, String.empty_append]

/- A bound in time is written as its text. -/
theorem emits_timeBound
    {left right : Option Part}
    (op : BinaryOp)
    (hLeft : ∀ bound ∈ left, Emits bound.write bound.text)
    (hRight : ∀ bound ∈ right, Emits bound.write bound.text) :
    Emits (Part.timeBound left right op).write
      (Part.timeBound left right op).text := by
  have hTime := emits_put timeAccessor
  cases left with
  | none =>
      cases right with
      | none => exact emits_throw _
      | some bound =>
          rw [text_timeBound_right, write]
          exact hTime.operation (hRight bound rfl) op
  | some bound =>
      cases right with
      | none =>
          rw [text_timeBound_left, write]
          exact (hLeft bound rfl).operation hTime op
      | some other => exact emits_throw _

/- A part is written as its text, or not at all. -/
theorem emits_write
    (p : Part) :
    Emits p.write p.text := by
  induction p with
  | literal name => exact emits_put name
  | column role name => exact emits_put (accessor name)
  | binary op left right ihLeft ihRight =>
      rw [text_binary, write]
      exact ihLeft.operation ihRight op
  | call function args ih => exact emits_call ih function
  | indexed key accessor => exact emits_put accessor
  | timeBound left right op ihLeft ihRight =>
      exact emits_timeBound op ihLeft ihRight
  | blank => exact emits_throw _

/- A text fails exactly where a part inside it has none. -/
theorem text_eq_error_iff
    (p : Part) :
    (∃ e, p.text = .error e) ↔ ∃ q ∈ p.positions, q.Refused := by
  simp only [← Step.error?_eq_some, error?_text, refused_iff,
    ← Option.isSome_iff_exists, ← Option.isSome_iff_ne_none,
    List.findSome?_isSome_iff]

/-
  Writing to a buffer adds the whole text of a part, or it fails
  as the text does and the buffer stays as it was.  It fails
  exactly where a part that is written has no text.
-/
theorem appendTo_cases
    (p : Part)
    (buffer : String) :
    ((∃ text, p.text = .ok text ∧
        p.appendTo buffer = (.ok (), buffer ++ text)) ∨
      (∃ e, p.text = .error e ∧
        p.appendTo buffer = (.error e, buffer) ∧
        p.positions.findSome? refusal? = some e)) ∧
    ((∃ e, (p.appendTo buffer).1 = .error e) ↔
      ∃ q ∈ p.positions, q.Refused) := by
  have hEmits := p.emits_write
  rw [← text_eq_error_iff]
  cases hText : p.text with
  | ok text =>
      rw [hText] at hEmits
      have hRun : p.appendTo buffer = (.ok (), buffer ++ text) :=
        hEmits buffer
      refine ⟨.inl ⟨text, rfl, hRun⟩, ?_⟩
      simp [hRun]
  | error e =>
      rw [hText] at hEmits
      have hRun : p.appendTo buffer = (.error e, buffer) :=
        hEmits buffer
      have hFirst : p.positions.findSome? refusal? = some e := by
        rw [← error?_text, Step.error?_eq_some]
        exact hText
      refine ⟨.inr ⟨e, rfl, hRun, hFirst⟩, ?_⟩
      simp [hRun]

end Part

end TypedFlux
