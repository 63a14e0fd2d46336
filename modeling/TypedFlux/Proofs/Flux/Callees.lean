import TypedFlux.Proofs.Flux.Mentions

/-
  Functions, found again in the text of a pipeline.

  A function is called where its path stands right before a
  parenthesis, outside of literals.  A path is made of words
  and points, so what a text calls is told piece by piece, and
  a call tells its own function first.

  Key definitions include:
    * `Scan.callees`, `Scan.calls`
    * `Scan.Calls`

  Key theorems include:
    * `Scan.calls_append`
    * `Scan.Calls.call`
    * `Scan.calls_piecewise`
    * `Scan.calls_stages`
    * `Stage.calls_call`
-/

------------------------------------------------------------
-- Functions in a Text
------------------------------------------------------------

namespace TypedFlux

namespace Scan

/- The paths before parentheses; `run` is the path so far. -/
def callees (run : List Char) : List Char → List String
  | [] => []
  | c :: cs =>
      if isPath c then callees (run ++ [c]) cs
      else if c = '(' ∧ run ≠ [] then
        String.ofList run :: callees [] cs
      else callees [] cs

/- The functions that a text calls outside of literals. -/
def calls (cs : List Char) : List String :=
  callees [] (code (.code 0) cs)

-- neither groups nor columns are called
example :
    calls "((r[\"f(\\\"g(\"] == a.b(v: (p1))) and k())".toList =
      ["a.b", "k"] := by
  decide

/- No path goes on over a character that ends it. -/
theorem callees_append
    {d : Char}
    (hPath : isPath d = false)
    (hOpen : d ≠ '(')
    (run cs ds : List Char) :
    callees run (cs ++ d :: ds) =
      callees run cs ++ callees [] ds := by
  induction cs generalizing run with
  | nil => simp [callees, hPath, hOpen]
  | cons c cs ih =>
      rw [List.cons_append, callees, callees]
      split
      · exact ih (run ++ [c])
      · split
        · rw [ih, List.cons_append]
        · exact ih []

/- A path goes on with the path in front of it. -/
theorem callees_path
    {cs : List Char}
    (hPath : cs.all isPath = true)
    (run ds : List Char) :
    callees run (cs ++ ds) = callees (run ++ cs) ds := by
  induction cs generalizing run with
  | nil => rw [List.append_nil, List.nil_append]
  | cons c cs ih =>
      rw [List.all_cons, Bool.and_eq_true] at hPath
      rw [List.cons_append, callees, if_pos hPath.1,
        ih hPath.2, List.append_assoc, List.singleton_append]

/- A call ends where its path does, outside of quotes. -/
theorem calls_append
    {cs : List Char}
    {d : Char}
    (hClosed : Closed cs)
    (hPath : isPath d = false)
    (hOpen : d ≠ '(')
    (hQuote : d ≠ '\x22')
    (ds : List Char) :
    calls (cs ++ d :: ds) = calls cs ++ calls ds := by
  unfold calls
  rw [code_cons hClosed hQuote, callees_append hPath hOpen]

------------------------------------------------------------
-- Texts and their Calls
------------------------------------------------------------

/- A closed text that calls these functions, in this order. -/
structure Calls
    (cs : List Char)
    (fs : List String) : Prop where
  closed : Closed cs
  calls : calls cs = fs

theorem isPlain_of_isPath
    {c : Char}
    (hPath : isPath c = true) :
    isPlain c = true := by
  rw [isPath, Bool.or_eq_true, beq_iff_eq] at hPath
  rcases hPath with hWord | rfl
  · exact isPlain_of_isWord hWord
  · rfl

theorem all_isPlain_of_isPath
    {cs : List Char}
    (hPath : cs.all isPath = true) :
    cs.all isPlain = true := by
  rw [List.all_eq_true] at hPath ⊢
  exact fun c hMem => isPlain_of_isPath (hPath c hMem)

/- A path on its own is not called. -/
theorem calls_path
    {cs : List Char}
    (hPath : cs.all isPath = true) :
    Calls cs [] := by
  have hPlain := all_isPlain_of_isPath hPath
  refine ⟨closed_of_isPlain hPlain, ?_⟩
  have hNone := callees_path hPath [] []
  rw [List.append_nil] at hNone
  unfold calls
  rw [code_of_isPlain hPlain, hNone]
  rfl

/- A word is no call without its parenthesis. -/
theorem calls_word
    {cs : List Char}
    (hWord : cs.all isWord = true) :
    Calls cs [] := by
  apply calls_path
  rw [List.all_eq_true] at hWord ⊢
  intro c hMem
  rw [isPath, hWord c hMem, Bool.true_or]

/- The closing parenthesis parts what stands around it. -/
theorem calls_paren
    {cs : List Char}
    {fs : List String}
    (hInner : Calls cs fs) :
    calls (cs ++ [')']) = fs := by
  rw [calls_append hInner.closed rfl (by decide) (by decide),
    hInner.calls]
  exact List.append_nil fs

/- A call tells its function, and then what is in it. -/
theorem Calls.call
    {path cs : List Char}
    {fs : List String}
    (hPath : path.all isPath = true)
    (hNonempty : path ≠ [])
    (hInner : Calls cs fs) :
    Calls (path ++ '(' :: (cs ++ [')']))
      (String.ofList path :: fs) where
  closed := (calls_path hPath).closed.append
    (closed_paren hInner.closed)
  calls := by
    have hCode := code_cons (calls_path hPath).closed
      (d := '(') (by decide) (cs ++ [')'])
    rw [code_of_isPlain (all_isPlain_of_isPath hPath)] at hCode
    unfold Scan.calls
    rw [hCode, callees_path hPath, List.nil_append, callees,
      if_neg (by decide), if_pos ⟨rfl, hNonempty⟩]
    exact congrArg (String.ofList path :: ·)
      (calls_paren hInner)

/- Functions are called piece by piece. -/
theorem calls_piecewise :
    Piecewise Calls where
  word := fun hWord _ => calls_word hWord
  quote := by
    intro s
    refine ⟨closed_quote s, ?_⟩
    unfold calls
    rw [code_quote]
    rfl
  paren := by
    intro cs fs hInner
    refine ⟨closed_paren hInner.closed, ?_⟩
    have hCode := code_cons closed_nil (d := '(') (by decide)
      (cs ++ [')'])
    rw [List.nil_append] at hCode
    unfold calls
    rw [hCode]
    exact calls_paren hInner
  append := by
    intro cs ds fs gs d hFirst hMark hSecond
    have hParts := hMark
    simp only [isMark, Bool.and_eq_true,
      Bool.not_eq_true'] at hParts
    have hOther : ∀ c : Char, isPlain c = false → d ≠ c := by
      rintro c hNoPlain rfl
      rw [hParts.2] at hNoPlain
      cases hNoPlain
    have hOne : Closed [d] :=
      closed_of_isPlain (by simp [hParts.2])
    constructor
    · exact hFirst.closed.append (hOne.append hSecond.closed)
    · rw [calls_append hFirst.closed hParts.1
        (hOther '(' rfl) (hOther '\x22' rfl), hFirst.calls,
        hSecond.calls]

theorem calls_nameAfter
    (n : Nat) :
    Calls (Variables.nameAfter n).toList [] :=
  calls_word (isWord_nameAfter n)

------------------------------------------------------------
-- Calls of a Pipeline
------------------------------------------------------------

/- Stages that are joined call what each of them calls. -/
theorem calls_stages
    {first : String}
    {rest : List String}
    (hWhole : ∀ s ∈ first :: rest, Whole s.toList) :
    calls (" |> ".intercalate (first :: rest)).toList =
      (first :: rest).flatMap fun s => calls s.toList := by
  induction rest generalizing first with
  | nil =>
      rw [List.flatMap_singleton]
      rfl
  | cons second rest ih =>
      rw [List.forall_mem_cons] at hWhole
      have hRest := ih hWhole.2
      have hArrow : ∀ cs : List Char,
          code (.code 0) (" |> ".toList ++ cs) =
            [] ++ ' ' :: ([] ++ '|' :: ([] ++ '>' :: ([]
              ++ ' ' :: code (.code 0) cs))) :=
        fun cs => rfl
      unfold calls at hRest ⊢
      rw [String.intercalate_cons_cons, String.toList_append,
        String.toList_append, List.append_assoc, code_append,
        hWhole.1.after, hArrow, List.nil_append,
        callees_append rfl (by decide),
        callees_append rfl (by decide),
        callees_append rfl (by decide),
        callees_append rfl (by decide), hRest,
        List.flatMap_cons]
      rfl

end Scan

namespace Stage

open Scan

/- The function of a stage is called, and what its arguments call. -/
theorem calls_call
    {function : String}
    {items : List (String × String)}
    {told : String × String → List String}
    (hPath : function.toList.all isPath = true)
    (hNonempty : function.toList ≠ [])
    (hItems : ∀ a ∈ items,
      a.1.toList.all isWord = true ∧
        Calls a.2.toList (told a)) :
    Calls (call function items).toList
      (function :: items.flatMap told) := by
  have hText : (call function items).toList =
      function.toList ++ '(' :: ((", ".intercalate
        (items.map fun a => a.1 ++ ": " ++ a.2)).toList
        ++ [')']) := by
    simp [call]
  have hArguments := calls_piecewise.arguments fun a hMem =>
    ⟨calls_word (hItems a hMem).1, (hItems a hMem).2⟩
  have hCall := hArguments.call hPath hNonempty
  rw [String.ofList_toList] at hCall
  rw [hText]
  exact hCall

end Stage

end TypedFlux
