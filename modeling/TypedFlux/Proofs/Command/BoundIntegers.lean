import TypedFlux.Command.Run
import TypedFlux.Proofs.Syntax.QueryTexts

/-
  Integers, written in a query or bound to a name.

  A numeral in a query is read without its sign, and the sign
  is applied when names are resolved.  A bound numeral is read
  with its sign, as a signed integer or else as a floating
  point number.  The two agree except at the least signed
  integer and past the greatest one.

  Key definitions include:
    * `Value.ofInteger`, `Node.ofInteger`
    * `Interchangeable`

  Key theorems include:
    * `Grammar.unary_ofInteger`
    * `Node.resolve_ofInteger`
    * `bindingValue_ofInt`
    * `bindAll_name`
    * `integers_interchangeable_iff`
-/

------------------------------------------------------------
-- Written Integers
------------------------------------------------------------

namespace TypedFlux

open Lexeme

/- The constant of an integer: signed wherever it fits. -/
def Value.ofInteger (n : Int) : Value :=
  if n ≤ 0x7fffffffffffffff then .int (Int64.ofInt n)
  else .uint (UInt64.ofNat n.toNat)

/- An integer in a query: a sign before a literal, or a literal. -/
def Node.ofInteger (n : Int) : Node :=
  if n < 0 then .negate (.literal (.ofInteger (-n)))
  else .literal (.ofInteger n)

/- Signed or unsigned, the constant holds the integer itself. -/
theorem Value.ofInteger_cases
    {n : Int}
    (hLow : -0x8000000000000000 ≤ n)
    (hHigh : n ≤ 0xffffffffffffffff) :
    (∃ k : Int64, Value.ofInteger n = .int k ∧ k.toInt = n) ∨
      ∃ k : UInt64, Value.ofInteger n = .uint k ∧
        (k.toNat : Int) = n ∧ 0x7fffffffffffffff < n := by
  unfold ofInteger
  split
  · next hSmall =>
      exact .inl ⟨_, rfl,
        Int64.toInt_ofInt_of_le hLow (by omega)⟩
  · next hLarge =>
      have hSame : (UInt64.ofNat n.toNat).toNat = n.toNat :=
        UInt64.toNat_ofNat_of_lt (by simp [UInt64.size]; omega)
      exact .inr ⟨_, rfl, by omega, by omega⟩

/- A number in bounds has a plain spelling. -/
theorem Value.isPlain_ofInteger
    {n : Int}
    (hNonneg : 0 ≤ n)
    (hHigh : n ≤ 0xffffffffffffffff) :
    (Value.ofInteger n).isPlain = true := by
  rcases ofInteger_cases (by omega) hHigh with
    ⟨k, hValue, hSame⟩ | ⟨k, hValue, hSame, hLarge⟩
  · rw [hValue, isPlain, hSame, decide_eq_true_eq]
    exact hNonneg
  · rw [hValue, isPlain, decide_eq_true_eq]
    omega

theorem Value.print_ofInteger
    {n : Int}
    (hNonneg : 0 ≤ n)
    (hHigh : n ≤ 0xffffffffffffffff) :
    (Value.ofInteger n).print.toList =
      (Numeral.ofNat n.natAbs).toList := by
  rcases ofInteger_cases (by omega) hHigh with
    ⟨k, hValue, hSame⟩ | ⟨k, hValue, hSame, _⟩
  · rw [hValue, print_int (by omega), hSame]
  · have hAbs : k.toNat = n.natAbs := by omega
    rw [hValue, print_uint, hAbs]

/- A negative one is a sign with a number behind it. -/
theorem Node.isCanonical_ofInteger
    {n : Int}
    (hLow : -0x8000000000000000 ≤ n)
    (hHigh : n ≤ 0xffffffffffffffff) :
    (Node.ofInteger n).isCanonical Value.isPlain = true := by
  unfold ofInteger
  split
  · exact Value.isPlain_ofInteger (by omega) (by omega)
  · exact Value.isPlain_ofInteger (by omega) hHigh

/- No layout. -/
def Pad.none : Pad := ⟨[], by simp⟩

/- Without layout behind its sign an integer is its numeral. -/
theorem Node.print_ofInteger
    {n : Int}
    (hLow : -0x8000000000000000 ≤ n)
    (hHigh : n ≤ 0xffffffffffffffff) :
    (Node.ofInteger n).print Pad.none 5 =
      (Numeral.ofInt n).toList := by
  unfold ofInteger
  split
  · next hNegative =>
      rw [Numeral.ofInt_of_neg hNegative]
      have hDigits := @Value.print_ofInteger (-n) (by omega)
        (by omega)
      rw [Int.natAbs_neg] at hDigits
      rw [← hDigits]
      rfl
  · next hNonneg =>
      rw [Numeral.ofInt_of_nonneg (by omega),
        ← Value.print_ofInteger (by omega) hHigh]
      rfl

namespace Grammar

/- A literal is an operand, whatever stands in brackets. -/
theorem reads_literal
    (inner : Reader Node)
    (bound : Nat)
    {v : Value}
    (hPlain : v.isPlain = true) :
    ReadsAt Pad.none inner bound 5 (.literal v) := by
  have hAccesses : Accesses Pad.none inner bound (.literal v) :=
    fun rest _ hBreaks =>
      accessed_of_primary (primary_literal hPlain hBreaks inner)
  exact hAccesses.reads.unary hPlain (by simp [Node.level])

/- A numeral is read as an operand wherever one may stand. -/
theorem unary_ofInteger
    {n : Int}
    (hLow : -0x8000000000000000 ≤ n)
    (hHigh : n ≤ 0xffffffffffffffff)
    (inner : Reader Node)
    {rest : List Char}
    (hEnds : Ends 5 rest) :
    unary inner ((Numeral.ofInt n).toList ++ rest) =
      .ok (.ofInteger n) rest := by
  have hReads : ∀ bound,
      ReadsAt Pad.none inner bound 5 (.ofInteger n) := by
    intro bound
    unfold Node.ofInteger
    split
    · have hPlain := @Value.isPlain_ofInteger (-n) (by omega)
        (by omega)
      exact reads_negate hPlain (reads_literal inner bound hPlain)
    · exact reads_literal inner bound
        (Value.isPlain_ofInteger (by omega) hHigh)
  rw [← Node.print_ofInteger hLow hHigh]
  exact hReads _ rest (Nat.le_refl _) hEnds

end Grammar

------------------------------------------------------------
-- Resolved Integers
------------------------------------------------------------

/- A sign makes the constant of a signed integer negative. -/
theorem Node.negated_ofInteger
    {n : Int}
    (hLow : -0x8000000000000000 < n)
    (hNegative : n < 0) :
    negated (.constant (.ofInteger (-n))) =
      .ok (.constant (.ofInteger n)) := by
  have hSame : (Int64.ofInt (-n)).toInt = -n :=
    Int64.toInt_ofInt_of_le (by omega) (by omega)
  have hOther : Int64.ofInt (-n) ≠ Int64.minValue := by
    intro hLeast
    rw [hLeast] at hSame
    have hValue : Int64.minValue.toInt = -0x8000000000000000 :=
      rfl
    omega
  rw [Value.ofInteger, if_pos (by omega), Value.ofInteger,
    if_pos (by omega), negated, if_neg hOther,
    ← Int64.ofInt_neg, Int.neg_neg]

/-
  An integer in a query stands for its constant, but the least
  signed integer keeps its sign: without it, it is unsigned.
-/
theorem Node.resolve_ofInteger
    {n : Int}
    (hLow : -0x8000000000000000 ≤ n)
    (variableName : String)
    (bindings : Bindings) :
    (Node.ofInteger n).resolve variableName bindings =
      .ok (if n = -0x8000000000000000 then
          .unary .negate (.constant (.uint 0x8000000000000000))
        else .constant (.ofInteger n)) := by
  unfold ofInteger
  split
  · next hNegative =>
      by_cases hLeast : n = -0x8000000000000000
      · -- its digits are past the signed range
        subst hLeast
        rfl
      · rw [if_neg hLeast]
        exact negated_ofInteger (by omega) hNegative
  · next hNonneg =>
      rw [if_neg (by omega)]
      rfl

------------------------------------------------------------
-- Bound Integers
------------------------------------------------------------

/- A numeral begins with a digit or a sign. -/
theorem Numeral.Denotes.head
    {cs : List Char}
    {n : Int}
    (hDenotes : Denotes cs n) :
    ∃ c rest, cs = c :: rest ∧
      (c.isDigit || c == '+' || c == '-') = true := by
  cases hDenotes with
  | plus hDigits => exact ⟨'+', _, rfl, rfl⟩
  | minus hDigits => exact ⟨'-', _, rfl, rfl⟩
  | plain hDigits =>
      rcases List.exists_cons_of_ne_nil hDigits.1 with
        ⟨c, rest, rfl⟩
      refine ⟨c, rest, rfl, ?_⟩
      simp [hDigits.2 c List.mem_cons_self]

theorem unquote?_of_ne
    {c : Char}
    (hOther : c ≠ '\x22')
    (cs : List Char) :
    unquote? (c :: cs) = none := by
  unfold unquote?
  split
  · next hHead => exact absurd (List.cons.inj hHead).1 hOther
  · rfl

/- A numeral is no string in quotes and no truth value. -/
theorem Numeral.Denotes.unlike
    {text : String}
    {n : Int}
    (hDenotes : Denotes text.toList n) :
    unquote? text.toList = none ∧ text ≠ "true" ∧
      text ≠ "false" := by
  rcases hDenotes.head with ⟨c, rest, hChars, hFirst⟩
  have hWord : ∀ (d : Char) (ds : List Char),
      (d.isDigit || d == '+' || d == '-') = false →
        text.toList ≠ d :: ds := by
    intro d ds hOther hSame
    rw [hChars] at hSame
    cases hSame
    simp [hFirst] at hOther
  refine ⟨?_, ?_, ?_⟩
  · rw [hChars]
    apply unquote?_of_ne
    rintro rfl
    exact hWord '\x22' rest rfl hChars
  · rintro rfl
    exact hWord 't' _ rfl rfl
  · rintro rfl
    exact hWord 'f' _ rfl rfl

/-
  A numeral is bound as the constant of its integer, but past
  the signed range as a floating point number.
-/
theorem bindingValue_ofInt
    {n : Int}
    (hLow : -0x8000000000000000 ≤ n)
    (hHigh : n ≤ 0xffffffffffffffff) :
    bindingValue (Numeral.ofInt n) =
      if n ≤ 0x7fffffffffffffff then .ofInteger n
      else .float (Binary64.ofInt n) := by
  rcases (Numeral.denotes_ofInt n).unlike with
    ⟨hUnquoted, hTrue, hFalse⟩
  simp only [bindingValue, hUnquoted, if_neg hTrue,
    if_neg hFalse, Numeral.int64?_ofInt]
  by_cases hSmall : n ≤ 0x7fffffffffffffff
  · have hFits : Numeral.toInt64? n = some (Int64.ofInt n) :=
      Numeral.toInt64?_eq_some.mpr
        (Int64.toInt_ofInt_of_le hLow (by omega))
    rw [hFits, if_pos hSmall, Value.ofInteger, if_pos hSmall]
  · have hPast : Numeral.toInt64? n = none :=
      Numeral.toInt64?_eq_none.mpr (by omega)
    have hSame : (n.natAbs : Int) = n := by omega
    have hFloat := @Numeral.binary64?_ofNat n.natAbs (by omega)
    rw [hSame] at hFloat
    rw [hPast, if_neg hSmall,
      Numeral.ofInt_of_nonneg (by omega), hFloat]

/- A binding is split at its first equals sign. -/
theorem splitEquals_of_ne
    {name : List Char}
    (hNone : ∀ c ∈ name, c ≠ '=')
    (value : List Char) :
    splitEquals (name ++ '=' :: value) = (name, some value) := by
  induction name with
  | nil => rfl
  | cons c name ih =>
      have hOther := hNone c List.mem_cons_self
      have hRest := ih fun d hMem =>
        hNone d (List.mem_cons_of_mem c hMem)
      rw [List.cons_append, splitEquals, hRest]
      rintro rfl
      exact hOther rfl

/- A name is bound as it stands. -/
theorem readBinding_name
    {x : String}
    (hName : isName x = true)
    (value : String) :
    readBinding (x ++ "=" ++ value) =
      .ok (x, bindingValue value) := by
  have hText : (x ++ "=" ++ value).toList =
      x.toList ++ '=' :: value.toList := by
    simp
  have hNone : ∀ c ∈ x.toList, c ≠ '=' := by
    rintro c hMem rfl
    exact absurd (isNameChar_of_isName hName _ hMem) (by decide)
  unfold readBinding
  rw [hText, splitEquals_of_ne hNone]
  simp only [Text.trimChars_name hName]
  split
  · next hEmpty =>
      rcases toList_of_isName hName with ⟨c, cs, hChars, _⟩
      simp [hChars] at hEmpty
  · rw [String.ofList_toList, String.ofList_toList]

/- One assignment binds one name. -/
theorem bindAll_name
    (reader : QueryReader)
    {x : String}
    (hName : isName x = true)
    (value : String) :
    bindAll reader [x ++ "=" ++ value] =
      .ok (reader.bind x (bindingValue value)) := by
  rw [bindAll, readBinding_name hName]
  rfl

------------------------------------------------------------
-- Integers in the Places of Names
------------------------------------------------------------

/- An integer in the place of one name. -/
def Node.inline
    (x : String)
    (n : Int)
    (y : String) : Node :=
  if y = x then .ofInteger n else .ident y

/-
  An integer may be bound to a name, or written in every place
  of the name, whatever the query and its layout.
-/
def Interchangeable (n : Int) : Prop :=
  ∀ (reader : QueryReader) (style : Style) (q : Comprehension)
    (x : String),
    q.isCanonical Value.isPlain = true → isName x = true →
      x ≠ q.variableName →
        ∃ reader',
          bindAll reader [x ++ "=" ++ Numeral.ofInt n] =
            .ok reader' ∧
          Alike
            (reader.read (String.ofList
              ((q.replace (Node.inline x n)).print style)))
            (reader'.read (String.ofList (q.print style)))

theorem Node.spelled_inline
    {n : Int}
    (hLow : -0x8000000000000000 ≤ n)
    (hHigh : n ≤ 0xffffffffffffffff)
    (x : String) :
    Node.Spelled Value.isPlain (Node.inline x n) := by
  intro y hCanonical
  unfold inline
  split
  · exact isCanonical_ofInteger hLow hHigh
  · exact hCanonical

/-
  A bound name is resolved to its value, unless it is the
  variable of the query.
-/
theorem Node.resolve_bound
    {variableName x : String}
    (hOther : x ≠ variableName)
    (bindings : Bindings)
    (v : Value) :
    (Node.ident x).resolve variableName (bindings.bind x v) =
      .ok (.constant v) := by
  rw [resolve, if_neg hOther]
  simp only [Bindings.get?, Bindings.bind,
    List.lookup_cons_self]

/- An integer that resolves to a bound constant replaces it. -/
theorem Node.faithful_inline
    {n : Int}
    {v : Value}
    {variableName x : String}
    (bindings : Bindings)
    (hOther : x ≠ variableName)
    (hValue : (Node.ofInteger n).resolve variableName bindings =
      .ok (.constant v)) :
    Node.Faithful (Node.inline x n) variableName
      (bindings.bind x v) variableName bindings := by
  intro y
  constructor
  case meaning =>
    unfold inline
    split
    · next hSame =>
        subst hSame
        rw [hValue, resolve_bound hOther]
        exact Alike.refl _
    · next hDiffers =>
        have hUnbound : (bindings.bind x v).get? y =
            bindings.get? y := by
          simp only [Bindings.get?, Bindings.bind,
            List.lookup_cons, beq_eq_false_iff_ne.mpr hDiffers]
        rw [resolve, resolve, hUnbound]
        exact Alike.refl _
  case rangeVariable =>
    unfold inline
    split
    · next hSame =>
        subst hSame
        unfold ofInteger
        split <;> simp [hOther]
    · simp
  case memberless =>
    unfold inline ofInteger
    split
    · split <;> rfl
    · rfl

------------------------------------------------------------
-- Interchange
------------------------------------------------------------

/- Two texts are read alike if their queries resolve alike. -/
theorem exists_bindAll_iff
    {n : Int}
    (hLow : -0x8000000000000000 ≤ n)
    (hHigh : n ≤ 0xffffffffffffffff)
    (reader : QueryReader)
    (style : Style)
    {q : Comprehension}
    {x : String}
    (hCanonical : q.isCanonical Value.isPlain = true)
    (hName : isName x = true) :
    (∃ reader',
        bindAll reader [x ++ "=" ++ Numeral.ofInt n] =
          .ok reader' ∧
        Alike
          (reader.read (String.ofList
            ((q.replace (Node.inline x n)).print style)))
          (reader'.read (String.ofList (q.print style)))) ↔
      Alike
        ((q.replace (Node.inline x n)).resolve reader.registry
          reader.bindings)
        (q.resolve reader.registry
          (reader.bindings.bind x
            (bindingValue (Numeral.ofInt n)))) := by
  have hReplaced := Comprehension.isCanonical_replace
    (Node.spelled_inline hLow hHigh x) hCanonical
  simp only [bindAll_name reader hName, Except.ok.injEq,
    exists_eq_left']
  rw [QueryReader.read_print _ style hReplaced,
    QueryReader.read_print _ style hCanonical]
  rfl

/- An integer is interchangeable if it means what is bound. -/
theorem interchangeable_of_resolve
    {n : Int}
    (hLow : -0x8000000000000000 ≤ n)
    (hHigh : n ≤ 0xffffffffffffffff)
    (hValue : ∀ variableName bindings,
      (Node.ofInteger n).resolve variableName bindings =
        .ok (.constant (bindingValue (Numeral.ofInt n)))) :
    Interchangeable n := by
  intro reader style q x hCanonical hName hOther
  apply (exists_bindAll_iff hLow hHigh reader style
    hCanonical hName).mpr
  exact q.resolve_replace reader.registry
    (Node.faithful_inline reader.bindings hOther (hValue _ _))

/- A query that asks for one thing. -/
def probeQuery (predicate : Node) : Comprehension where
  variableName := "s"
  entity := "sensor"
  clauses := [.filter predicate]
  selected := "s"
  operators := []

theorem resolve_probeQuery
    (registry : Registry)
    {bindings : Bindings}
    {predicate : Node}
    {e : Expr}
    (hResolve : predicate.resolve "s" bindings = .ok e) :
    (probeQuery predicate).resolve registry bindings =
      .ok ⟨"sensor", [.filter e], []⟩ := by
  simp only [Comprehension.resolve, probeQuery, ne_eq,
    not_true, if_false, List.mapM_cons, List.mapM_nil,
    Clause.resolve, hResolve]
  rfl

/- An interchangeable integer means what is bound. -/
theorem Interchangeable.eq_constant
    {n : Int}
    (hInterchangeable : Interchangeable n)
    (hLow : -0x8000000000000000 ≤ n)
    (hHigh : n ≤ 0xffffffffffffffff)
    {e : Expr}
    (hResolve : (Node.ofInteger n).resolve "s" [] = .ok e) :
    e = .constant (bindingValue (Numeral.ofInt n)) := by
  have hCanonical : (probeQuery (.ident "x")).isCanonical
      Value.isPlain = true := by
    decide
  have hOther : "x" ≠ "s" := by decide
  have hWritten : (probeQuery (.ident "x")).replace
      (Node.inline "x" n) = probeQuery (.ofInteger n) :=
    rfl
  have hAlike := (exists_bindAll_iff hLow hHigh {}
    Grammar.spreadStyle hCanonical rfl).mp
    (hInterchangeable {} Grammar.spreadStyle
      (probeQuery (.ident "x")) "x" hCanonical rfl hOther)
  rw [hWritten, resolve_probeQuery _ hResolve,
    resolve_probeQuery _ (Node.resolve_bound hOther [] _)]
    at hAlike
  have hSame : Query.mk "sensor" [.filter e] [] = _ := hAlike
  cases hSame
  rfl

/-
  A numeral in a query stands for its integer, except that the
  least signed integer is a negated constant.  A bound numeral
  stands for its integer in the signed range, and past it for
  a floating point number.  So written and bound integers may
  be exchanged exactly above the least and up to the greatest
  signed integer.
-/
theorem integers_interchangeable_iff
    (n : Int)
    (hLow : -0x8000000000000000 ≤ n)
    (hHigh : n ≤ 0xffffffffffffffff) :
    (∀ (inner : Reader Node) (rest : List Char),
      Grammar.Ends 5 rest →
        Grammar.unary inner
            ((Numeral.ofInt n).toList ++ rest) =
          .ok (.ofInteger n) rest) ∧
    (∀ variableName bindings,
      (Node.ofInteger n).resolve variableName bindings =
        .ok (if n = -0x8000000000000000 then
            .unary .negate
              (.constant (.uint 0x8000000000000000))
          else .constant (.ofInteger n))) ∧
    bindingValue (Numeral.ofInt n) =
      (if n ≤ 0x7fffffffffffffff then .ofInteger n
        else .float (Binary64.ofInt n)) ∧
    (Interchangeable n ↔
      -0x8000000000000000 < n ∧ n ≤ 0x7fffffffffffffff) := by
  have hResolve := Node.resolve_ofInteger hLow
  have hBinding := bindingValue_ofInt hLow hHigh
  refine ⟨fun inner rest hEnds =>
    Grammar.unary_ofInteger hLow hHigh inner hEnds, hResolve,
    hBinding, ?_, ?_⟩
  · -- one query already tells the two constants apart
    intro hInterchangeable
    have hSame := hInterchangeable.eq_constant hLow hHigh
      (hResolve "s" [])
    rw [hBinding] at hSame
    by_cases hLeast : n = -0x8000000000000000
    · simp [hLeast] at hSame
    · by_cases hSmall : n ≤ 0x7fffffffffffffff
      · exact ⟨by omega, hSmall⟩
      · simp [hLeast, hSmall, Value.ofInteger] at hSame
  · rintro ⟨hAbove, hSmall⟩
    apply interchangeable_of_resolve hLow hHigh
    intro variableName bindings
    rw [hResolve, hBinding, if_neg (by omega), if_pos hSmall]

theorem integers_interchangeable_iff_nearLeast :
    -0x8000000000000000 ≤ (-0x7fffffffffffffff : Int) ∧
      (-0x7fffffffffffffff : Int) ≤ 0xffffffffffffffff ∧
      Interchangeable (-0x7fffffffffffffff) :=
  ⟨by decide, by decide,
    (integers_interchangeable_iff (-0x7fffffffffffffff)
      (by decide) (by decide)).2.2.2.mpr
      ⟨by decide, by decide⟩⟩

/-
  The least signed integer is no constant in a query, and the
  integer behind the greatest signed one is bound as a floating
  point number.
-/
theorem not_interchangeable_limits :
    ((Node.ofInteger (-0x8000000000000000)).resolve "s" [] =
        .ok (.unary .negate
          (.constant (.uint 0x8000000000000000))) ∧
      ¬ Interchangeable (-0x8000000000000000)) ∧
    (bindingValue "9223372036854775808" =
        .float (Binary64.ofInt 0x8000000000000000) ∧
      ¬ Interchangeable 0x8000000000000000) := by
  have hText : Numeral.ofInt 0x8000000000000000 =
      "9223372036854775808" := by
    decide +kernel
  have hBinding := @bindingValue_ofInt 0x8000000000000000
    (by decide) (by decide)
  rw [hText, if_neg (by decide)] at hBinding
  refine ⟨⟨rfl, ?_⟩, hBinding, ?_⟩
  · intro hInterchangeable
    cases hInterchangeable.eq_constant (by decide) (by decide)
      rfl
  · intro hInterchangeable
    have hSame := hInterchangeable.eq_constant (by decide)
      (by decide) rfl
    rw [hText, hBinding] at hSame
    cases hSame

end TypedFlux
