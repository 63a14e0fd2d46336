import TypedFlux.Proofs.Syntax.QueryTexts

/-
  The trees that are read from texts.

  Whatever the text, a reader answers with certain values
  only: names that can be written, operators that have a
  symbol, and literals of the values that a text can denote.
  So every query that is read can be written again, and if it
  has neither floating point numbers nor times it is read back
  from each of its spellings.

  Key definitions include:
    * `Reader.Yields`
    * `Value.isReadable`
    * `Node.literals`, `Comprehension.literals`

  Key theorems include:
    * `Lexeme.yields_span`, `Lexeme.yields_number`
    * `Grammar.yields_expression`
    * `Grammar.yields_fullQuery`
    * `Comprehension.isCanonical_of_literals`
    * `Grammar.fullQuery_canonical`
-/

------------------------------------------------------------
-- Values of Readers
------------------------------------------------------------

namespace TypedFlux

namespace Reader

variable {α β : Type}
variable {P : α → Prop} {Q : β → Prop}
variable {p q : Reader α} {next : α → Reader β}

/- Every value that a reader answers with has a property. -/
def Yields
    (p : Reader α)
    (P : α → Prop) : Prop :=
  ∀ s value rest, p s = .ok value rest → P value

theorem yields_pure
    {value : α}
    (hValue : P value) :
    Yields (Pure.pure value) P := by
  rintro s _ rest ⟨⟩
  exact hValue

/- What the first reader yields may be used for the next. -/
theorem Yields.bind
    (hFirst : Yields p P)
    (hNext : ∀ value, P value → Yields (next value) Q) :
    Yields (p >>= next) Q := by
  intro s result rest hRead
  rcases bind_eq_ok.mp hRead with
    ⟨value, between, hValue, hResult⟩
  exact hNext value (hFirst s value between hValue)
    between result rest hResult

/- What comes after any value. -/
theorem yields_after
    (hNext : ∀ value, Yields (next value) Q) :
    Yields (p >>= next) Q := by
  intro s result rest hRead
  rcases bind_eq_ok.mp hRead with ⟨value, between, _, hResult⟩
  exact hNext value between result rest hResult

/- A choice yields what both readers yield. -/
theorem Yields.orElse
    (hFirst : Yields p P)
    (hSecond : Yields q P) :
    Yields (p <|> q) P := by
  intro s value rest hRead
  rcases orElse_eq_ok.mp hRead with hRead | ⟨_, hRead⟩
  · exact hFirst s value rest hRead
  · exact hSecond s value rest hRead

/- An absent value has nothing to fulfil. -/
theorem Yields.optional
    (hYields : Yields p P) :
    Yields (Reader.optional p) fun value? =>
      ∀ value, value? = some value → P value := by
  intro s value? rest hRead value hValue
  rcases optional_eq_ok.mp hRead with
    ⟨first, rfl, hFirst⟩ | ⟨_, rfl, _⟩
  · cases hValue
    exact hYields s value rest hFirst
  · cases hValue

/- A conversion yields what comes of the values before it. -/
theorem yields_convert
    {f : α → Option β}
    (hYields : Yields p P)
    (hConvert : ∀ value result,
      P value → f value = some result → Q result) :
    Yields (convert p f) Q := by
  intro s result rest hRead
  rcases convert_eq_ok.mp hRead with ⟨value, hValue, hResult⟩
  exact hConvert value result (hYields s value rest hValue)
    hResult

/- Every item of a list is yielded by its reader. -/
theorem Yields.many
    (hYields : Yields p P) :
    Yields (Reader.many p) fun values =>
      ∀ value ∈ values, P value := by
  intro s
  fun_induction Reader.many p s with
  | case1 s value rest hRead hShorter ih =>
      intro values last hMany
      rcases map_eq_ok.mp hMany with ⟨others, hOthers, rfl⟩
      rw [List.forall_mem_cons]
      exact ⟨hYields s value rest hRead,
        ih others last hOthers⟩
  | case2 => rintro values last ⟨⟩
  | case3 s fault hMiss =>
      rintro values last ⟨⟩
      exact fun value hMem => absurd hMem List.not_mem_nil
  | case4 => rintro values last ⟨⟩

theorem Yields.sepTail
    (hYields : Yields p P)
    (separator : Reader Unit) :
    Yields (Reader.sepTail p separator) fun values =>
      ∀ value ∈ values, P value := by
  intro s
  fun_induction Reader.sepTail p separator s with
  | case1 s _ between _ value rest hItem hShorter ih =>
      intro values last hTail
      rcases map_eq_ok.mp hTail with ⟨others, hOthers, rfl⟩
      rw [List.forall_mem_cons]
      exact ⟨hYields between value rest hItem,
        ih others last hOthers⟩
  | case3 | case5 =>
      rintro values last ⟨⟩
      exact fun value hMem => absurd hMem List.not_mem_nil
  | case2 | case4 | case6 => rintro values last ⟨⟩

/- The same of a list with separators. -/
theorem Yields.sepBy
    (hYields : Yields p P)
    (separator : Reader Unit) :
    Yields (Reader.sepBy p separator) fun values =>
      ∀ value ∈ values, P value := by
  intro s values last hRead
  cases hItem : p s with
  | ok value rest =>
      rw [sepBy_of_ok hItem] at hRead
      rcases map_eq_ok.mp hRead with ⟨others, hOthers, rfl⟩
      rw [List.forall_mem_cons]
      exact ⟨hYields s value rest hItem,
        hYields.sepTail separator rest others last hOthers⟩
  | miss fault =>
      rw [sepBy_of_misses ⟨fault, hItem⟩] at hRead
      cases hRead
      exact fun value hMem => absurd hMem List.not_mem_nil
  | cut fault =>
      rw [Reader.sepBy, hItem] at hRead
      cases hRead

/- At least one value is read. -/
theorem Yields.sepBy1
    (hYields : Yields p P)
    (separator : Reader Unit) :
    Yields (Reader.sepBy1 p separator) fun values =>
      values ≠ [] ∧ ∀ value ∈ values, P value := by
  intro s values last hRead
  cases hItem : p s with
  | ok value rest =>
      rw [sepBy1_of_ok hItem] at hRead
      rcases map_eq_ok.mp hRead with ⟨others, hOthers, rfl⟩
      rw [List.forall_mem_cons]
      exact ⟨List.cons_ne_nil _ _,
        hYields s value rest hItem,
        hYields.sepTail separator rest others last hOthers⟩
  | miss fault | cut fault =>
      rw [Reader.sepBy1, hItem] at hRead
      cases hRead

end Reader

end TypedFlux

------------------------------------------------------------
-- Literals
------------------------------------------------------------

namespace TypedFlux

open Reader

/- Whether a value is a floating point number or a time. -/
def Value.isFloatOrTime : Value → Bool
  | .float _ | .time _ => true
  | _ => false

/- The values that a literal can denote. -/
def Value.isReadable (v : Value) : Bool :=
  v.isPlain || v.isFloatOrTime

/-
  What is read is plain, but for floating point numbers and
  timestamps.
-/
theorem Value.isPlain_of_isReadable
    {v : Value}
    (hReadable : v.isReadable = true)
    (hOther : v.isFloatOrTime = false) :
    v.isPlain = true := by
  simpa [isReadable, hOther] using hReadable

/- All plain values can be read. -/
theorem Value.isReadable_of_isPlain
    {v : Value}
    (hPlain : v.isPlain = true) :
    v.isReadable = true := by
  rw [isReadable, hPlain, Bool.true_or]

namespace Lexeme

theorem yields_name :
    Yields name fun x => isName x = true := by
  intro s x rest hRead
  exact (name_eq_ok.mp hRead).1

/- A timestamp is read as a value of its own kind. -/
theorem yields_timestamp :
    Yields timestamp fun v => v.isReadable = true := by
  refine yields_convert (P := fun _ => True)
    (fun _ _ _ _ => trivial) ?_
  intro s v _ hTime
  rcases Option.map_eq_some_iff.mp hTime with ⟨t, _, rfl⟩
  rfl

/- An amount has no sign, so it is not negative. -/
theorem yields_amount :
    Yields amount fun n => 0 ≤ n.toInt := by
  refine yields_convert (P := fun _ => True)
    (fun _ _ _ _ => trivial) ?_
  intro ds n _ hFits
  have hSame := Numeral.toInt64?_eq_some.mp hFits
  omega

/- A unit is a whole number of the smallest one. -/
theorem yields_unit :
    Yields unit fun factor => 0 ≤ factor := by
  have hWord : ∀ (w : String) (factor : Int), 0 ≤ factor →
      Yields (do word w; return factor) (0 ≤ ·) :=
    fun w factor hFactor =>
      yields_after fun _ => yields_pure hFactor
  refine (hWord "ms" 1000 ?_).orElse <|
    (hWord "us" 1 ?_).orElse <|
    (hWord "s" 1000000 ?_).orElse <|
    (hWord "m" (60 * 1000000) ?_).orElse <|
    (hWord "h" (60 * 60 * 1000000) ?_).orElse
      (hWord "d" (24 * 60 * 60 * 1000000) ?_)
  all_goals decide

/- A span that is read has whole microseconds, from zero. -/
theorem yields_span :
    Yields span fun v => v.isReadable = true := by
  refine yields_convert (P := fun micros => 0 ≤ micros) ?_ ?_
  · refine yields_amount.bind fun n hAmount => ?_
    refine yields_unit.bind fun factor hFactor => ?_
    refine yields_after fun _ => yields_pure ?_
    exact Int.mul_nonneg hAmount hFactor
  · intro micros v hNonneg hValue
    rcases Option.map_eq_some_iff.mp hValue with
      ⟨n, hFits, rfl⟩
    have hHigh := n.toInt_lt
    have hSame := Numeral.toInt64?_eq_some.mp hFits
    have hTotal : (Span.ofMicros n).total = n.toInt * 1000 :=
      rfl
    apply Value.isReadable_of_isPlain
    simp only [Value.isPlain, Bool.and_eq_true,
      decide_eq_true_eq, beq_iff_eq, hTotal]
    omega

/- A whole number is unsigned only past the signed range. -/
theorem isPlain_of_wholeValue?
    {n : Nat}
    {v : Value}
    (hValue : wholeValue? n = some v) :
    v.isPlain = true := by
  unfold wholeValue? at hValue
  split at hValue
  · next hFits =>
      cases hValue
      have hSame : (Int64.ofNat n).toInt = n :=
        Int64.toInt_ofNat_of_lt (by omega)
      simp [Value.isPlain, hSame]
  · next hPast =>
      split at hValue
      · next hFits =>
          cases hValue
          have hSame : (UInt64.ofNat n).toNat = n :=
            UInt64.toNat_ofNat_of_lt
              (Nat.lt_add_one_of_le hFits)
          simp only [Value.isPlain, hSame, decide_eq_true_eq]
          omega
      · cases hValue

/- A number is an integer that fits, or floating. -/
theorem yields_number :
    Yields number fun v => v.isReadable = true := by
  refine yields_convert (P := fun _ => True)
    (fun _ _ _ _ => trivial) ?_
  rintro ⟨whole, fraction?⟩ v _ hValue
  cases fraction? with
  | none =>
      exact Value.isReadable_of_isPlain
        (isPlain_of_wholeValue? hValue)
  | some fraction =>
      cases hValue
      rfl

end Lexeme

end TypedFlux

------------------------------------------------------------
-- Expressions
------------------------------------------------------------

namespace TypedFlux

open Lexeme Reader

/- A list is canonical if its items are. -/
theorem Node.areCanonical_iff
    {accepts : Value → Bool}
    {ns : List Node} :
    areCanonical accepts ns = true ↔
      ∀ n ∈ ns, n.isCanonical accepts = true := by
  induction ns with
  | nil => simp [areCanonical]
  | cons n rest ih =>
      rw [areCanonical, Bool.and_eq_true, ih,
        List.forall_mem_cons]

/- Whether an expression can be read from some text. -/
def Node.IsReadable (n : Node) : Prop :=
  n.isCanonical Value.isReadable = true

namespace Grammar

variable {inner : Reader Node}

theorem yields_enclosed
    {α : Type}
    {P : α → Prop}
    {content : Reader α}
    (hContent : Yields content P)
    (opening closing : Char) :
    Yields (enclosed opening closing content) P := by
  refine yields_after fun _ => yields_after fun _ => ?_
  refine hContent.bind fun value hValue => ?_
  exact yields_after fun _ => yields_after fun _ =>
    yields_pure hValue

/- Arguments are expressions one by one. -/
theorem yields_arguments
    (hInner : Yields inner Node.IsReadable) :
    Yields (arguments inner) fun args =>
      Node.areCanonical Value.isReadable args = true := by
  intro s args rest hRead
  exact Node.areCanonical_iff.mpr
    (yields_enclosed (hInner.sepBy comma) '(' ')' s args rest
      hRead)

/- A name that is read is no keyword that was missed. -/
theorem ne_of_keyword_misses
    {w x : String}
    {n : Node}
    {s rest : List Char}
    (hMiss : Reader.Misses (do keyword w; return n) s)
    (hName : name s = .ok x rest) :
    x ≠ w := by
  rintro rfl
  rcases name_eq_ok.mp hName with ⟨_, hRest, rfl⟩
  rcases hMiss with ⟨fault, hMiss⟩
  rw [bind_of_ok (keyword_append x hRest)] at hMiss
  cases hMiss

/- No name stands for a truth value. -/
theorem yields_wordPrimary :
    Yields wordPrimary Node.IsReadable := by
  intro s n rest hRead
  rcases orElse_eq_ok.mp hRead with
    hTrue | ⟨hTrue, hRead⟩
  · rcases bind_eq_ok.mp hTrue with ⟨_, _, _, ⟨⟩⟩
    rfl
  rcases orElse_eq_ok.mp hRead with
    hFalse | ⟨hFalse, hRead⟩
  · rcases bind_eq_ok.mp hFalse with ⟨_, _, _, ⟨⟩⟩
    rfl
  rcases bind_eq_ok.mp hRead with ⟨x, between, hName, ⟨⟩⟩
  simp only [Node.IsReadable, Node.isCanonical,
    Bool.and_eq_true, bne_iff_ne]
  exact ⟨⟨(name_eq_ok.mp hName).1,
    ne_of_keyword_misses hTrue hName⟩,
    ne_of_keyword_misses hFalse hName⟩

/- Literals and names are read as they are. -/
theorem yields_atom :
    Yields atom Node.IsReadable := by
  have hLiteral : ∀ p : Reader Value,
      Yields p (fun v => v.isReadable = true) →
        Yields (do let v ← p; return .literal v)
          Node.IsReadable :=
    fun p hValues => hValues.bind fun v hReadable =>
      yields_pure hReadable
  have hString :
      Yields (do
        let s ← stringLiteral
        return .literal (.string s)) Node.IsReadable :=
    yields_after fun s => yields_pure rfl
  exact (hLiteral _ yields_timestamp).orElse <|
    (hLiteral _ yields_span).orElse <|
    (hLiteral _ yields_number).orElse <|
    hString.orElse yields_wordPrimary

/- A primary expression is readable if what it encloses is. -/
theorem yields_primary
    (hInner : Yields inner Node.IsReadable) :
    Yields (primary inner) Node.IsReadable := by
  have hArray :
      Yields (do
        let items ← enclosed '[' ']' (sepBy inner comma)
        return .array items) Node.IsReadable := by
    refine (yields_enclosed (hInner.sepBy comma) '[' ']').bind
      fun items hItems => yields_pure ?_
    exact Node.areCanonical_iff.mpr hItems
  exact (yields_enclosed hInner '(' ')').orElse
    (hArray.orElse yields_atom)

/- Whether an accessor can be read from some text. -/
def Accessor.IsReadable : Accessor → Prop
  | .field member => isName member = true
  | .call method args =>
      isName method = true ∧
        Node.areCanonical Value.isReadable args = true
  | .index key => key.IsReadable

/- Accessors carry names and expressions. -/
theorem yields_accessor
    (hInner : Yields inner Node.IsReadable) :
    Yields (accessor inner) Accessor.IsReadable := by
  refine Yields.orElse ?_ ?_
  · refine yields_after fun _ => ?_
    refine yields_name.bind fun x hName => ?_
    refine (yields_arguments hInner).optional.bind
      fun args? hArgs => ?_
    cases args? with
    | some args => exact yields_pure ⟨hName, hArgs args rfl⟩
    | none => exact yields_pure hName
  · exact (yields_enclosed hInner '[' ']').bind
      fun key hKey => yields_pure hKey

/- An accessor on a readable expression is readable. -/
theorem Accessor.isReadable_apply
    {n : Node}
    {a : Accessor}
    (hNode : n.IsReadable)
    (hAccessor : a.IsReadable) :
    (a.apply n).IsReadable := by
  unfold Node.IsReadable at hNode ⊢
  cases a with
  | field member =>
      rw [apply, Node.isCanonical, hNode, Bool.true_and]
      exact hAccessor
  | call method args =>
      rw [apply, Node.isCanonical, hNode, Bool.true_and,
        Bool.and_eq_true]
      exact hAccessor
  | index key =>
      rw [apply, Node.isCanonical, hNode, Bool.true_and]
      exact hAccessor

theorem yields_accessed
    (hInner : Yields inner Node.IsReadable) :
    Yields (accessed inner) Node.IsReadable := by
  refine (yields_primary hInner).bind fun n hNode => ?_
  refine (yields_accessor hInner).many.bind
    fun accessors hAccessors => yields_pure ?_
  induction accessors generalizing n with
  | nil => exact hNode
  | cons a rest ih =>
      rw [List.forall_mem_cons] at hAccessors
      exact ih (a.apply n)
        (Accessor.isReadable_apply hNode hAccessors.1)
        hAccessors.2

/- Signs can stand before every expression. -/
theorem yields_unary
    (hInner : Yields inner Node.IsReadable) :
    Yields (unary inner) Node.IsReadable := by
  refine unary_induction (P := fun _ reply => ∀ n rest,
    reply = .ok n rest → n.IsReadable) ?_ ?_ ?_ ?_
  · exact yields_accessed hInner
  · rintro s n rest ih _ _ ⟨⟩
    exact ih n rest rfl
  · rintro s n rest ih _ _ ⟨⟩
    exact ih n rest rfl
  · rintro c s fault _ _ _ ⟨⟩

/-
  Operands and operators are put together from the left.  By
  induction on the run: the left operand so far can be read.
-/
theorem yields_chainTail
    {operand : Reader Node}
    {operator : Reader BinaryOp}
    {left : Node}
    (hOperand : Yields operand Node.IsReadable)
    (hOperator : Yields operator
      fun op => op.isCanonical = true)
    (hLeft : left.IsReadable) :
    Yields (chainTail operand operator left)
      Node.IsReadable := by
  intro s
  fun_induction chainTail operand operator left s with
  | case1 left s op between hOp right rest hRight _ ih =>
      apply ih
      have hRightOperand := hOperand _ right rest hRight
      unfold Node.IsReadable at hLeft hRightOperand ⊢
      rw [Node.isCanonical, hOperator _ op between hOp, hLeft,
        hRightOperand]
      rfl
  | case2 | case5 =>
      rintro _ last ⟨⟩
      exact hLeft
  | case3 | case4 | case6 => rintro _ last ⟨⟩

/- Operators join readable operands from the left. -/
theorem yields_chain
    {operand : Reader Node}
    {operator : Reader BinaryOp}
    (hOperand : Yields operand Node.IsReadable)
    (hOperator : Yields operator
      fun op => op.isCanonical = true) :
    Yields (chain operand operator) Node.IsReadable :=
  hOperand.bind fun _ hLeft =>
    yields_chainTail hOperand hOperator hLeft

/- An operator is read in one of its two spellings only. -/
theorem yields_operator
    {op : BinaryOp}
    (hCanonical : op.isCanonical = true)
    (w : String) :
    Yields (operator w op) fun op => op.isCanonical = true :=
  yields_after fun _ => yields_pure hCanonical

theorem yields_sum
    (hInner : Yields inner Node.IsReadable) :
    Yields (sum inner) Node.IsReadable := by
  have hProduct : Yields (product inner) Node.IsReadable :=
    yields_chain (yields_unary hInner) <|
      (yields_operator rfl "*").orElse <|
      (yields_operator rfl "/").orElse (yields_operator rfl "%")
  exact yields_chain hProduct <|
    (yields_operator rfl "+").orElse (yields_operator rfl "-")

theorem yields_comparisonOperator :
    Yields comparisonOperator
      fun op => op.isCanonical = true :=
  (yields_operator rfl "==").orElse <|
    (yields_operator rfl "!=").orElse <|
    (yields_operator rfl "<=").orElse <|
    (yields_operator rfl ">=").orElse <|
    (yields_operator rfl "<").orElse (yields_operator rfl ">")

/- A comparison has one operator, and its sides are sums. -/
theorem yields_comparison
    (hInner : Yields inner Node.IsReadable) :
    Yields (comparison inner) Node.IsReadable := by
  have hCompared :
      Yields (do
        layout
        let op ← comparisonOperator
        layout
        let right ← sum inner
        return (op, right)) fun compared =>
          compared.1.isCanonical = true ∧
            compared.2.IsReadable := by
    refine yields_after fun _ => ?_
    refine yields_comparisonOperator.bind fun op hOp => ?_
    refine yields_after fun _ => ?_
    exact (yields_sum hInner).bind fun right hRight =>
      yields_pure ⟨hOp, hRight⟩
  refine (yields_sum hInner).bind fun left hLeft => ?_
  refine hCompared.optional.bind fun compared? hParts => ?_
  cases compared? with
  | none => exact yields_pure hLeft
  | some compared =>
      rcases hParts compared rfl with ⟨hOp, hRight⟩
      apply yields_pure
      unfold Node.IsReadable at hLeft hRight ⊢
      rw [Node.isCanonical, hOp, hLeft, hRight]
      rfl

/- The loosest operator holds all others. -/
theorem yields_disjunction
    (hInner : Yields inner Node.IsReadable) :
    Yields (disjunction inner) Node.IsReadable := by
  have hConjunction :
      Yields (conjunction inner) Node.IsReadable :=
    yields_chain (yields_comparison hInner)
      (yields_operator rfl "&&")
  exact yields_chain hConjunction (yields_operator rfl "||")

/- At every depth, by induction on it. -/
theorem yields_nested
    (depth : Nat) :
    Yields (nested depth) Node.IsReadable := by
  induction depth with
  | zero => rintro s n rest ⟨⟩
  | succ depth ih => exact yields_disjunction ih

theorem yields_expression :
    Yields expression Node.IsReadable :=
  fun s => yields_nested (s.length + 1) s

end Grammar

end TypedFlux

------------------------------------------------------------
-- Queries
------------------------------------------------------------

namespace TypedFlux

open Lexeme Reader

namespace Grammar

theorem yields_ordering :
    Yields ordering fun key => key.1.IsReadable :=
  yields_expression.bind fun _ hKey =>
    yields_after fun _ => yields_pure hKey

/- A clause of either kind. -/
theorem yields_clause :
    Yields clause
      fun c => c.isCanonical Value.isReadable = true := by
  refine Yields.orElse ?_ ?_
  · refine yields_after fun _ => yields_after fun _ => ?_
    exact yields_expression.bind fun predicate hPredicate =>
      yields_pure hPredicate
  · refine yields_after fun _ => yields_after fun _ => ?_
    refine (yields_ordering.sepBy1 comma).bind
      fun keys hKeys => yields_pure ?_
    simp only [Clause.isCanonical, Bool.and_eq_true,
      Bool.not_eq_true', List.isEmpty_eq_false_iff,
      List.all_eq_true]
    exact hKeys

/- A query without operators, which come behind it. -/
theorem yields_comprehension :
    Yields comprehension fun q =>
      q.isCanonical Value.isReadable = true ∧
        q.operators = [] := by
  refine yields_after fun _ => yields_after fun _ => ?_
  refine yields_name.bind fun variableName hVariable => ?_
  refine yields_after fun _ => yields_after fun _ =>
    yields_after fun _ => ?_
  refine yields_name.bind fun entity hEntity => ?_
  have hClause : Yields (do layout1; clause) fun c =>
      c.isCanonical Value.isReadable = true :=
    yields_after fun _ => yields_clause
  refine hClause.many.bind fun clauses hClauses => ?_
  refine yields_after fun _ => yields_after fun _ =>
    yields_after fun _ => ?_
  refine yields_name.bind fun selected hSelected => ?_
  refine yields_pure ⟨?_, rfl⟩
  simp only [Comprehension.isCanonical, Bool.and_eq_true,
    List.all_eq_true]
  exact ⟨⟨⟨⟨hVariable, hEntity⟩, hClauses⟩, hSelected⟩,
    fun call hMem => absurd hMem List.not_mem_nil⟩

/- The name of an operator and its arguments. -/
theorem yields_operatorCall :
    Yields operatorCall fun call =>
      isName call.method = true ∧
        Node.areCanonical Value.isReadable call.args = true := by
  refine yields_after fun _ => yields_after fun _ => ?_
  refine yields_name.bind fun method hMethod => ?_
  refine yields_after fun _ => ?_
  exact (yields_arguments yields_expression).bind
    fun args hArgs => yields_pure ⟨hMethod, hArgs⟩

/- Every query that is read can be written. -/
theorem yields_fullQuery :
    Yields fullQuery fun q =>
      q.isCanonical Value.isReadable = true := by
  refine yields_after fun _ => ?_
  have hQuery := (yields_enclosed yields_comprehension '('
    ')').orElse yields_comprehension
  refine hQuery.bind fun q hParts => ?_
  have hCall : Yields (do layout; operatorCall) fun call =>
      isName call.method = true ∧
        Node.areCanonical Value.isReadable call.args = true :=
    yields_after fun _ => yields_operatorCall
  refine hCall.many.bind fun calls hCalls => ?_
  refine yields_after fun _ => yields_pure ?_
  have hCanonical := hParts.1
  simp only [Comprehension.isCanonical, Bool.and_eq_true,
    List.all_eq_true] at hCanonical ⊢
  exact ⟨hCanonical.1, hCalls⟩

end Grammar

end TypedFlux

------------------------------------------------------------
-- Literals of a Query
------------------------------------------------------------

namespace TypedFlux

mutual

/- The values of all literals in an expression. -/
def Node.literals : Node → List Value
  | .literal v => [v]
  | .ident _ => []
  | .field base _ => base.literals
  | .index base key => base.literals ++ key.literals
  | .call receiver _ args =>
      receiver.literals ++ Node.literalsAll args
  | .binary _ left right => left.literals ++ right.literals
  | .not operand | .negate operand => operand.literals
  | .array items => Node.literalsAll items

/- The values of all literals in a list of expressions. -/
def Node.literalsAll : List Node → List Value
  | [] => []
  | n :: rest => n.literals ++ Node.literalsAll rest

end

/- The values of all literals in a clause. -/
def Clause.literals : Clause → List Value
  | .filter predicate => predicate.literals
  | .order keys => keys.flatMap fun key => key.1.literals

/- The values of all literals in a query. -/
def Comprehension.literals (q : Comprehension) : List Value :=
  q.clauses.flatMap Clause.literals ++
    q.operators.flatMap fun call =>
      Node.literalsAll call.args

variable {accepts accepts' : Value → Bool}

theorem Node.areCanonical_of_literals
    {ns : List Node}
    (hEach : ∀ n ∈ ns, n.isCanonical accepts = true →
      (∀ v ∈ n.literals, accepts v = true →
        accepts' v = true) →
        n.isCanonical accepts' = true)
    (hCanonical : areCanonical accepts ns = true)
    (hLiterals : ∀ v ∈ literalsAll ns,
      accepts v = true → accepts' v = true) :
    areCanonical accepts' ns = true := by
  induction ns with
  | nil => rfl
  | cons n rest ih =>
      rw [literalsAll, List.forall_mem_append] at hLiterals
      rw [List.forall_mem_cons] at hEach
      simp only [areCanonical, Bool.and_eq_true] at hCanonical ⊢
      exact ⟨hEach.1 hCanonical.1 hLiterals.1,
        ih hEach.2 hCanonical.2 hLiterals.2⟩

/- What values are accepted matters for the literals only. -/
theorem Node.isCanonical_of_literals
    (n : Node)
    (hCanonical : n.isCanonical accepts = true)
    (hLiterals : ∀ v ∈ n.literals,
      accepts v = true → accepts' v = true) :
    n.isCanonical accepts' = true := by
  induction n with
  | literal v =>
      exact hLiterals v List.mem_cons_self hCanonical
  | ident x => exact hCanonical
  | field base member ih =>
      simp only [isCanonical, Bool.and_eq_true] at hCanonical ⊢
      exact ⟨ih hCanonical.1 hLiterals, hCanonical.2⟩
  | index base key ihBase ihKey =>
      rw [literals, List.forall_mem_append] at hLiterals
      simp only [isCanonical, Bool.and_eq_true] at hCanonical ⊢
      exact ⟨ihBase hCanonical.1 hLiterals.1,
        ihKey hCanonical.2 hLiterals.2⟩
  | call receiver method args ihReceiver ihArgs =>
      rw [literals, List.forall_mem_append] at hLiterals
      simp only [isCanonical, Bool.and_eq_true] at hCanonical ⊢
      exact ⟨⟨ihReceiver hCanonical.1.1 hLiterals.1,
        hCanonical.1.2⟩,
        areCanonical_of_literals ihArgs hCanonical.2
          hLiterals.2⟩
  | binary op left right ihLeft ihRight =>
      rw [literals, List.forall_mem_append] at hLiterals
      simp only [isCanonical, Bool.and_eq_true] at hCanonical ⊢
      exact ⟨⟨hCanonical.1.1,
        ihLeft hCanonical.1.2 hLiterals.1⟩,
        ihRight hCanonical.2 hLiterals.2⟩
  | not operand ih | negate operand ih =>
      exact ih hCanonical hLiterals
  | array items ih =>
      exact areCanonical_of_literals ih hCanonical hLiterals

/- The same of a clause and its expressions. -/
theorem Clause.isCanonical_of_literals
    (c : Clause)
    (hCanonical : c.isCanonical accepts = true)
    (hLiterals : ∀ v ∈ c.literals,
      accepts v = true → accepts' v = true) :
    c.isCanonical accepts' = true := by
  cases c with
  | filter predicate =>
      exact predicate.isCanonical_of_literals hCanonical
        hLiterals
  | order keys =>
      simp only [isCanonical, Bool.and_eq_true,
        List.all_eq_true] at hCanonical ⊢
      refine ⟨hCanonical.1, fun key hMem => ?_⟩
      exact key.1.isCanonical_of_literals
        (hCanonical.2 key hMem) fun v hLiteral => hLiterals v
          (List.mem_flatMap.mpr ⟨key, hMem, hLiteral⟩)

/- The same of a query and its clauses. -/
theorem Comprehension.isCanonical_of_literals
    (q : Comprehension)
    (hCanonical : q.isCanonical accepts = true)
    (hLiterals : ∀ v ∈ q.literals,
      accepts v = true → accepts' v = true) :
    q.isCanonical accepts' = true := by
  rw [literals, List.forall_mem_append] at hLiterals
  rcases hLiterals with ⟨hBody, hCalls⟩
  simp only [isCanonical, Bool.and_eq_true,
    List.all_eq_true] at hCanonical ⊢
  rcases hCanonical with ⟨⟨⟨hNames, hClauses⟩, hSelected⟩,
    hOperators⟩
  refine ⟨⟨⟨hNames, fun clause hMem => ?_⟩, hSelected⟩,
    fun call hMem => ?_⟩
  · exact clause.isCanonical_of_literals (hClauses clause hMem)
      fun v hLiteral => hBody v
        (List.mem_flatMap.mpr ⟨clause, hMem, hLiteral⟩)
  · rcases hOperators call hMem with ⟨hMethod, hArgs⟩
    exact ⟨hMethod, Node.areCanonical_of_literals
      (fun n _ => n.isCanonical_of_literals) hArgs
      fun v hLiteral => hCalls v
        (List.mem_flatMap.mpr ⟨call, hMem, hLiteral⟩)⟩

------------------------------------------------------------
-- Queries Written Again
------------------------------------------------------------

namespace Grammar

/-
  Whatever the text, a query that is read from it is canonical:
  its names are names, and no truth value is among them, its
  operators have symbols, and its literals are readable.  So
  without floating point numbers and times, it is read back
  from each of its spellings, with nothing left over.
-/
theorem fullQuery_canonical
    {s rest : List Char}
    {q : Comprehension}
    (hRead : fullQuery s = .ok q rest) :
    q.isCanonical Value.isReadable = true ∧
      ((∀ v ∈ q.literals, v.isFloatOrTime = false) →
        ∀ style : Style,
          fullQuery (q.print style) = .ok q []) := by
  have hReadable := yields_fullQuery s q rest hRead
  refine ⟨hReadable, fun hExact style => ?_⟩
  have hPlain : q.isCanonical Value.isPlain = true :=
    q.isCanonical_of_literals hReadable fun v hLiteral =>
      fun hValue => Value.isPlain_of_isReadable hValue
        (hExact v hLiteral)
  rw [Comprehension.print_eq_printInner]
  exact fullQuery_run style hPlain style.pad.layout
    style.pad.layout

/- A query on lines of its own. -/
theorem fullQuery_lines
    (style : Style)
    {q : Comprehension}
    (hCanonical : q.isCanonical Value.isPlain = true) :
    fullQuery ('\n' :: (q.printInner style ++ ['\n'])) =
      .ok q [] := by
  have hLine : ∀ c ∈ ['\n'], Text.isLayout c = true :=
    List.forall_mem_singleton.mpr (by decide)
  exact fullQuery_run style hCanonical hLine hLine

theorem fullQuery_canonical_nestedQuery :
    fullQuery
        ('\n' :: (nestedQuery.printInner spreadStyle ++ ['\n'])) =
      .ok nestedQuery [] ∧
    (∀ v ∈ nestedQuery.literals, v.isFloatOrTime = false) ∧
    nestedQuery.isCanonical Value.isReadable = true ∧
    fullQuery (nestedQuery.print spreadStyle) =
      .ok nestedQuery [] :=
  ⟨fullQuery_lines spreadStyle (by decide), by decide,
    (fullQuery_canonical
      (fullQuery_lines spreadStyle (by decide))).1,
    (fullQuery_canonical
      (fullQuery_lines spreadStyle (by decide))).2
      (by decide) spreadStyle⟩

end Grammar

end TypedFlux
