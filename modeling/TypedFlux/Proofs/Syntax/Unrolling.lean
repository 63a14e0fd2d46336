import TypedFlux.Proofs.Syntax.Progress

/-
  Readers without their bounds.

  Repetitions and chains ask after each round whether the text
  has become shorter, and expressions carry a bound on the
  depth of their brackets.  Neither is ever felt: without the
  question every loop ends by itself, and whatever stands at
  the bottom of the nesting is not reached.

  A loop is cut off after a number of rounds, and a nesting at
  a depth, by an arbitrary answer.  If the answer of the whole
  does not depend on it, the loop or the nesting has ended
  before.

  Key definitions include:
    * `Reader.manyWithin`, `Reader.sepTailWithin`
    * `Grammar.chainTailWithin`
    * `Reader.AgreeBelow`
    * `Grammar.unrolled`
    * `Grammar.Phrase`

  Key theorems include:
    * `Reader.manyWithin_eq`, `Reader.sepTailWithin_eq`
    * `Grammar.chainTailWithin_eq`
    * `Grammar.agree_disjunction`
    * `Grammar.unrolled_eq`
    * `Grammar.disjunction_expression`
    * `Grammar.phrases_advance`
-/

------------------------------------------------------------
-- Loops within a Number of Rounds
------------------------------------------------------------

namespace TypedFlux

namespace Reader

variable {α : Type}

/-
  Read as many values as there are, without a question for
  progress, and give up after a number of rounds.
-/
def manyWithin
    (p : Reader α)
    (late : Reply (List α)) : Nat → Reader (List α)
  | 0, _ => late
  | rounds + 1, s =>
      match p s with
      | .ok value rest =>
          (manyWithin p late rounds rest).map (value :: ·)
      | .miss _ => .ok [] s
      | .cut fault => .cut fault

/- The same for values with a separator before each. -/
def sepTailWithin
    (item : Reader α)
    (separator : Reader Unit)
    (late : Reply (List α)) : Nat → Reader (List α)
  | 0, _ => late
  | rounds + 1, s =>
      match separator s with
      | .ok _ between =>
          match item between with
          | .ok value rest =>
              (sepTailWithin item separator late rounds rest).map
                (value :: ·)
          | .miss _ => .ok [] s
          | .cut fault => .cut fault
      | .miss _ => .ok [] s
      | .cut fault => .cut fault

/- A repetition has fewer rounds than its text has places. -/
theorem manyWithin_eq
    {p : Reader α}
    (hAdvances : Advances p)
    (late : Reply (List α))
    {rounds : Nat}
    {s : List Char}
    (hRounds : s.length < rounds) :
    manyWithin p late rounds s = many p s := by
  induction rounds generalizing s with
  | zero => exact absurd hRounds (Nat.not_lt_zero _)
  | succ rounds ih =>
      cases hRead : p s with
      | ok value rest =>
          have hShorter := (hAdvances s value rest hRead).2
          have hRest : rest.length < rounds := by omega
          rw [many_of_ok hRead hShorter, ← ih hRest,
            manyWithin, hRead]
      | miss fault =>
          rw [many_of_misses ⟨fault, hRead⟩, manyWithin, hRead]
      | cut fault => rw [many, manyWithin, hRead]

/-
  A list with separators ends within as many rounds as there
  are characters.
-/
theorem sepTailWithin_eq
    {item : Reader α}
    {separator : Reader Unit}
    (hItem : Advances item)
    (hSeparator : Trims separator)
    (late : Reply (List α))
    {rounds : Nat}
    {s : List Char}
    (hRounds : s.length < rounds) :
    sepTailWithin item separator late rounds s =
      sepTail item separator s := by
  induction rounds generalizing s with
  | zero => exact absurd hRounds (Nat.not_lt_zero _)
  | succ rounds ih =>
      rw [sepTailWithin, sepTail]
      cases hBetween : separator s with
      | ok value between =>
          have hLe := (hSeparator s value between
            hBetween).length_le
          cases hRead : item between with
          | ok value rest =>
              have hShort := (hItem between value rest hRead).2
              have hShorter : rest.length < s.length := by omega
              have hRest : rest.length < rounds := by omega
              simp only [hRead, ih hRest, hShorter, if_true]
          | miss fault => simp only [hRead]
          | cut fault => simp only [hRead]
      | miss fault => rfl
      | cut fault => rfl

end Reader

namespace Grammar

open Reader

/- The same for operands with an operator before each. -/
def chainTailWithin
    (operand : Reader Node)
    (operator : Reader BinaryOp)
    (late : Reply Node) : Nat → Node → Reader Node
  | 0, _, _ => late
  | rounds + 1, left, s =>
      match operator (s.dropWhile Text.isLayout) with
      | .ok op between =>
          match operand (between.dropWhile Text.isLayout) with
          | .ok right rest =>
              chainTailWithin operand operator late rounds
                (.binary op left right) rest
          | .miss fault => .miss fault
          | .cut fault => .cut fault
      | .miss _ => .ok left s
      | .cut fault => .cut fault

/- So does a chain of operands. -/
theorem chainTailWithin_eq
    {operand : Reader Node}
    {operator : Reader BinaryOp}
    (hOperand : Advances operand)
    (hOperator : Trims operator)
    (late : Reply Node)
    {rounds : Nat}
    {s : List Char}
    (hRounds : s.length < rounds)
    (left : Node) :
    chainTailWithin operand operator late rounds left s =
      chainTail operand operator left s := by
  induction rounds generalizing s left with
  | zero => exact absurd hRounds (Nat.not_lt_zero _)
  | succ rounds ih =>
      rw [chainTailWithin, chainTail]
      cases hOp : operator (s.dropWhile Text.isLayout) with
      | ok op between =>
          have hBetween := ((hOperator _ op between hOp).trans
            (List.dropWhile_suffix _)).length_le
          have hLayout := (List.dropWhile_suffix
            (l := between) Text.isLayout).length_le
          cases hRight :
              operand (between.dropWhile Text.isLayout) with
          | ok right rest =>
              have hShort := (hOperand _ right rest hRight).2
              have hShorter : rest.length < s.length := by omega
              have hRest : rest.length < rounds := by omega
              simp only [hRight, ih hRest, hShorter, if_true]
          | miss fault => simp only [hRight]
          | cut fault => simp only [hRight]
      | miss fault => rfl
      | cut fault => rfl

end Grammar

end TypedFlux

------------------------------------------------------------
-- Agreement on Shorter Texts
------------------------------------------------------------

namespace TypedFlux

namespace Reader

variable {α β : Type}
variable {n : Nat}
variable {p q : Reader α} {next others : α → Reader β}

/- Two readers give the same answers to texts below a length. -/
def AgreeBelow
    (n : Nat)
    (p q : Reader α) : Prop :=
  ∀ s, s.length < n → p s = q s

theorem AgreeBelow.refl
    (n : Nat)
    (p : Reader α) :
    AgreeBelow n p p :=
  fun _ _ => rfl

/- One of the readers has to leave no more than it was given. -/
theorem AgreeBelow.bind
    (hFirst : AgreeBelow n p q)
    (hTrims : Trims q)
    (hNext : ∀ value, AgreeBelow n (next value) (others value)) :
    AgreeBelow n (p >>= next) (q >>= others) := by
  intro s hShort
  have hSame := hFirst s hShort
  cases hRead : q s with
  | ok value rest =>
      have hLe := (hTrims s value rest hRead).length_le
      rw [bind_of_ok (hSame.trans hRead), bind_of_ok hRead]
      exact hNext value rest (Nat.lt_of_le_of_lt hLe hShort)
  | miss fault | cut fault =>
      change Reader.bind p next s = Reader.bind q others s
      rw [Reader.bind, Reader.bind, hSame, hRead]

/- Behind a reader that advances, texts have become shorter. -/
theorem Advances.agree
    (hFirst : Advances p)
    (hNext : ∀ value, AgreeBelow n (next value) (others value)) :
    AgreeBelow (n + 1) (p >>= next) (p >>= others) := by
  intro s hShort
  cases hRead : p s with
  | ok value rest =>
      have hShorter := (hFirst s value rest hRead).2
      rw [bind_of_ok hRead, bind_of_ok hRead]
      exact hNext value rest (by omega)
  | miss fault | cut fault =>
      change Reader.bind p next s = Reader.bind p others s
      rw [Reader.bind, Reader.bind, hRead]

/- Readers that agree still do when their values are changed. -/
theorem AgreeBelow.map
    (hAgree : AgreeBelow n p q)
    (f : α → β) :
    AgreeBelow n (p >>= fun value => Pure.pure (f value))
      (q >>= fun value => Pure.pure (f value)) := by
  intro s hShort
  rw [bind_pure_eq_map, bind_pure_eq_map, hAgree s hShort]

/- Choices agree if their readers do one by one. -/
theorem AgreeBelow.orElse
    {first second : Reader α}
    (hFirst : AgreeBelow n p q)
    (hSecond : AgreeBelow n first second) :
    AgreeBelow n (p <|> first) (q <|> second) := by
  intro s hShort
  change Reader.orElse p first s = Reader.orElse q second s
  rw [Reader.orElse, Reader.orElse, hFirst s hShort,
    hSecond s hShort]

theorem AgreeBelow.optional
    (hAgree : AgreeBelow n p q) :
    AgreeBelow n (Reader.optional p) (Reader.optional q) := by
  intro s hShort
  rw [Reader.optional, Reader.optional, hAgree s hShort]

/-
  Items are read from shorter and shorter texts, so the bound
  holds for all of them.
-/
theorem AgreeBelow.many
    (hAgree : AgreeBelow n p q) :
    AgreeBelow n (Reader.many p) (Reader.many q) := by
  intro s hShort
  fun_induction Reader.many p s with
  | case1 s value rest hRead hShorter ih =>
      rw [ih (Nat.lt_trans hShorter hShort)]
      rw [hAgree s hShort] at hRead
      rw [many_of_ok hRead hShorter]
  | case2 s value rest hRead hLonger =>
      rw [hAgree s hShort] at hRead
      rw [Reader.many, hRead]
      simp only [hLonger, if_false]
  | case3 s fault hRead | case4 s fault hRead =>
      rw [hAgree s hShort] at hRead
      rw [Reader.many, hRead]

/-
  The same of items behind separators, which give nothing
  back.
-/
theorem AgreeBelow.sepTail
    {separator : Reader Unit}
    (hAgree : AgreeBelow n p q)
    (hSeparator : Trims separator) :
    AgreeBelow n (Reader.sepTail p separator)
      (Reader.sepTail q separator) := by
  have hItem : ∀ {s between : List Char}, s.length < n →
      separator s = .ok () between → p between = q between := by
    intro s between hShort hBetween
    have hLe := (hSeparator s () between hBetween).length_le
    exact hAgree between (Nat.lt_of_le_of_lt hLe hShort)
  intro s hShort
  fun_induction Reader.sepTail p separator s with
  | case1 s _ between hBetween value rest hRead hShorter ih =>
      rw [ih (Nat.lt_trans hShorter hShort)]
      rw [hItem hShort hBetween] at hRead
      rw [sepTail_of_ok hBetween hRead hShorter]
  | case2 s _ between hBetween value rest hRead hLonger =>
      rw [hItem hShort hBetween] at hRead
      rw [Reader.sepTail, hBetween]
      simp only [hRead, hLonger, if_false]
  | case3 s _ between hBetween fault hRead
  | case4 s _ between hBetween fault hRead =>
      rw [hItem hShort hBetween] at hRead
      rw [Reader.sepTail, hBetween]
      simp only [hRead]
  | case5 s fault hMiss | case6 s fault hMiss =>
      rw [Reader.sepTail, hMiss]

/- And of a list that begins with an item. -/
theorem AgreeBelow.sepBy
    {separator : Reader Unit}
    (hAgree : AgreeBelow n p q)
    (hTrims : Trims q)
    (hSeparator : Trims separator) :
    AgreeBelow n (Reader.sepBy p separator)
      (Reader.sepBy q separator) := by
  intro s hShort
  have hSame := hAgree s hShort
  cases hRead : q s with
  | ok value rest =>
      have hLe := (hTrims s value rest hRead).length_le
      have hTail := hAgree.sepTail hSeparator rest
        (Nat.lt_of_le_of_lt hLe hShort)
      rw [sepBy_of_ok (hSame.trans hRead), sepBy_of_ok hRead,
        hTail]
  | miss fault | cut fault =>
      rw [Reader.sepBy, Reader.sepBy, hSame, hRead]

end Reader

end TypedFlux

------------------------------------------------------------
-- Brackets
------------------------------------------------------------

namespace TypedFlux

namespace Grammar

open Lexeme Reader

variable {α : Type}
variable {n : Nat}
variable {inner sound : Reader Node}

/- A bracket takes a character before what it encloses. -/
theorem agree_enclosed
    {content trimming : Reader α}
    (hAgree : AgreeBelow n content trimming)
    (hTrims : Trims trimming)
    (opening closing : Char) :
    AgreeBelow (n + 1) (enclosed opening closing content)
      (enclosed opening closing trimming) := by
  refine (advances_symbol opening).agree fun _ => ?_
  refine (AgreeBelow.refl n layout).bind trims_layout fun _ => ?_
  exact hAgree.bind hTrims fun _ => .refl n _

/-
  The opening bracket is one character more, so what is inside
  may be one shorter.
-/
theorem agree_items
    (hAgree : AgreeBelow n inner sound)
    (hTrims : Trims sound)
    (opening closing : Char) :
    AgreeBelow (n + 1)
      (enclosed opening closing (sepBy inner comma))
      (enclosed opening closing (sepBy sound comma)) := by
  have hComma := advances_comma.trims
  exact agree_enclosed (hAgree.sepBy hTrims hComma)
    (hTrims.sepBy hComma) opening closing

/- A primary expression is nested only inside of brackets. -/
theorem agree_primary
    (hAgree : AgreeBelow n inner sound)
    (hTrims : Trims sound) :
    AgreeBelow (n + 1) (primary inner) (primary sound) :=
  (agree_enclosed hAgree hTrims '(' ')').orElse <|
    ((agree_items hAgree hTrims '[' ']').map Node.array).orElse
      (.refl _ atom)

/- So is what an accessor holds. -/
theorem agree_accessor
    (hAgree : AgreeBelow n inner sound)
    (hTrims : Trims sound) :
    AgreeBelow (n + 1) (accessor inner) (accessor sound) := by
  refine AgreeBelow.orElse ?_ ?_
  · refine (AgreeBelow.refl _ (symbol '.')).bind
      (advances_symbol '.').trims fun _ => ?_
    refine (AgreeBelow.refl _ name).bind
      advances_name.trims fun x => ?_
    exact (agree_items hAgree hTrims '(' ')').optional.bind
      (advances_arguments hTrims).trims.optional
      fun _ => .refl _ _
  · exact (agree_enclosed hAgree hTrims '[' ']').map
      Accessor.index

/- The accessors come behind what the primary left. -/
theorem agree_accessed
    (hAgree : AgreeBelow n inner sound)
    (hTrims : Trims sound) :
    AgreeBelow (n + 1) (accessed inner) (accessed sound) := by
  refine (agree_primary hAgree hTrims).bind
    (advances_primary hTrims).trims fun node => ?_
  exact (agree_accessor hAgree hTrims).many.map _

------------------------------------------------------------
-- Levels
------------------------------------------------------------

/- A sign is a character too, so the bound holds behind it. -/
theorem agree_unary
    (hAgree : AgreeBelow n (accessed inner) (accessed sound)) :
    AgreeBelow n (unary inner) (unary sound) := by
  intro s hShort
  have hLayout : ∀ {c : Char} {s : List Char},
      (c :: s).length < n →
        (s.dropWhile Text.isLayout).length < n := by
    intro c s hShort
    have hLe := (List.dropWhile_suffix
      (l := s) Text.isLayout).length_le
    rw [List.length_cons] at hShort
    omega
  fun_induction unary inner s with
  | case1 s node rest hOperand ih | case4 s node rest hOperand ih =>
      rw [unary, ← ih (hLayout hShort), hOperand]
  | case2 s fault hOperand ih | case5 s fault hOperand ih =>
      rw [unary, ← ih (hLayout hShort), hOperand]
      exact hAgree _ hShort
  | case3 s fault hOperand ih | case6 s fault hOperand ih =>
      rw [unary, ← ih (hLayout hShort), hOperand]
  | case7 s hNot hMinus =>
      rw [unary]
      · exact hAgree s hShort
      · exact hNot
      · exact hMinus

/- Each further operand is read from a shorter text. -/
theorem agree_chainTail
    {operand trimming : Reader Node}
    {operator : Reader BinaryOp}
    (hAgree : AgreeBelow n operand trimming)
    (hOperator : Trims operator)
    (left : Node) :
    AgreeBelow n (chainTail operand operator left)
      (chainTail trimming operator left) := by
  have hOperand : ∀ {s between : List Char} {op : BinaryOp},
      s.length < n →
      operator (s.dropWhile Text.isLayout) = .ok op between →
        operand (between.dropWhile Text.isLayout) =
          trimming (between.dropWhile Text.isLayout) := by
    intro s between op hShort hOp
    have hLe := ((List.dropWhile_suffix Text.isLayout).trans
      ((hOperator _ op between hOp).trans
        (List.dropWhile_suffix Text.isLayout))).length_le
    exact hAgree _ (Nat.lt_of_le_of_lt hLe hShort)
  intro s hShort
  fun_induction chainTail operand operator left s with
  | case1 left s op between hOp right rest hRight hShorter ih =>
      rw [ih (Nat.lt_trans hShorter hShort)]
      rw [hOperand hShort hOp] at hRight
      rw [chainTail_of_ok hOp hRight hShorter]
  | case2 left s op between hOp right rest hRight hLonger =>
      rw [hOperand hShort hOp] at hRight
      rw [chainTail, hOp]
      simp only [hRight, hLonger, if_false]
  | case3 left s op between hOp fault hRight
  | case4 left s op between hOp fault hRight =>
      rw [hOperand hShort hOp] at hRight
      rw [chainTail, hOp]
      simp only [hRight]
  | case5 left s fault hOp | case6 left s fault hOp =>
      rw [chainTail, hOp]

/- A chain agrees if its operands do. -/
theorem agree_chain
    {operand trimming : Reader Node}
    {operator : Reader BinaryOp}
    (hAgree : AgreeBelow n operand trimming)
    (hTrims : Trims trimming)
    (hOperator : Trims operator) :
    AgreeBelow n (chain operand operator)
      (chain trimming operator) :=
  hAgree.bind hTrims fun left =>
    agree_chainTail hAgree hOperator left

/- So does a comparison. -/
theorem agree_comparison
    (hAgree : AgreeBelow n (sum inner) (sum sound))
    (hTrims : Trims (sum sound)) :
    AgreeBelow n (comparison inner) (comparison sound) := by
  have hCompared :
      AgreeBelow n (compared inner) (compared sound) := by
    refine (AgreeBelow.refl n layout).bind trims_layout
      fun _ => ?_
    refine (AgreeBelow.refl n comparisonOperator).bind
      (advances_operatorAt 2).trims fun op => ?_
    refine (AgreeBelow.refl n layout).bind trims_layout
      fun _ => ?_
    exact hAgree.map _
  refine hAgree.bind hTrims fun left => ?_
  exact hCompared.optional.bind
    (trims_compared hTrims).optional fun compared? => .refl n _

/-
  Expressions ask for what stands in brackets, and for shorter
  texts only.
-/
theorem agree_disjunction
    (hAgree : AgreeBelow n inner sound)
    (hTrims : Trims sound) :
    AgreeBelow (n + 1) (disjunction inner)
      (disjunction sound) := by
  have hLevel : ∀ level, Trims (readerAt sound level) :=
    fun level => (advances_readerAt hTrims level).trims
  have hSign : ∀ level, Trims (operatorAt level) :=
    fun level => (advances_operatorAt level).trims
  have hUnary := agree_unary (agree_accessed hAgree hTrims)
  have hProduct := agree_chain hUnary (hLevel 5) (hSign 4)
  have hSum := agree_chain hProduct (hLevel 4) (hSign 3)
  have hComparison := agree_comparison hSum (hLevel 3)
  have hConjunction :=
    agree_chain hComparison (hLevel 2) (hSign 1)
  exact agree_chain hConjunction (hLevel 1) (hSign 0)

end Grammar

end TypedFlux

------------------------------------------------------------
-- Nesting
------------------------------------------------------------

namespace TypedFlux

namespace Grammar

open Lexeme Reader

/-
  Expressions with brackets nested to a depth, and with any
  reader for what is nested deeper.
-/
def unrolled (base : Reader Node) : Nat → Reader Node
  | 0 => base
  | depth + 1 => disjunction (unrolled base depth)

/- The depth of brackets is less than the length of the text. -/
theorem agree_unrolled
    (base : Reader Node)
    (depth : Nat) :
    AgreeBelow depth (unrolled base depth) (nested depth) := by
  induction depth with
  | zero =>
      intro s hShort
      exact absurd hShort (Nat.not_lt_zero _)
  | succ depth ih =>
      -- the base may leave any text, so the bounded side trims
      exact agree_disjunction ih (advances_nested depth).trims

/- Unrolling the grammar is nesting it deeper. -/
theorem unrolled_nested
    (more depth : Nat) :
    unrolled (nested more) depth = nested (more + depth) := by
  induction depth with
  | zero => rfl
  | succ depth ih => rw [unrolled, ih, Nat.add_succ, nested]

/-
  Any depth beyond the length of the text gives the same, so
  the bound is never felt.
-/
theorem nested_eq_expression
    {depth : Nat}
    {s : List Char}
    (hDepth : s.length < depth) :
    nested depth s = expression s := by
  obtain ⟨more, rfl⟩ := Nat.exists_eq_add_of_le' hDepth
  rw [← unrolled_nested]
  exact agree_unrolled (nested more) (s.length + 1) s
    (Nat.lt_succ_self _)

/- What stands at the bottom of the nesting is not reached. -/
theorem unrolled_eq
    (base : Reader Node)
    {depth : Nat}
    {s : List Char}
    (hDepth : s.length < depth) :
    unrolled base depth s = expression s :=
  (agree_unrolled base depth s hDepth).trans
    (nested_eq_expression hDepth)

/- Expressions are read by themselves, to any depth. -/
theorem disjunction_expression :
    disjunction expression = expression := by
  funext s
  have hBelow :
      AgreeBelow s.length expression (nested s.length) :=
    fun t hShort => (nested_eq_expression hShort).symm
  exact agree_disjunction hBelow (advances_nested _).trims s
    (Nat.lt_succ_self _)

------------------------------------------------------------
-- Phrases
------------------------------------------------------------

/- The parts of a query that have a reader of their own. -/
inductive Phrase : Type → Type where
  | fullQuery : Phrase Comprehension
  | comprehension : Phrase Comprehension
  | laidClause : Phrase Clause
  | clause : Phrase Clause
  | ordering : Phrase (Node × Direction)
  | laidCall : Phrase OperatorCall
  | operatorCall : Phrase OperatorCall
  | arguments : Phrase (List Node)
  | expression : Phrase Node
  | level (n : Nat) : Phrase Node
  | accessor : Phrase Accessor
  | primary : Phrase Node
  | timestamp : Phrase Value
  | span : Phrase Value
  | number : Phrase Value
  | stringLiteral : Phrase String
  | name : Phrase String

/- The reader of a phrase. -/
def Phrase.reader : {α : Type} → Phrase α → Reader α
  | _, .fullQuery => Grammar.fullQuery
  | _, .comprehension => Grammar.comprehension
  | _, .laidClause => Grammar.laidClause
  | _, .clause => Grammar.clause
  | _, .ordering => Grammar.ordering
  | _, .laidCall => Grammar.laidCall
  | _, .operatorCall => Grammar.operatorCall
  | _, .arguments => Grammar.arguments Grammar.expression
  | _, .expression => Grammar.expression
  | _, .level n => readerAt Grammar.expression n
  | _, .accessor => Grammar.accessor Grammar.expression
  | _, .primary => Grammar.primary Grammar.expression
  | _, .timestamp => Lexeme.timestamp
  | _, .span => Lexeme.span
  | _, .number => Lexeme.number
  | _, .stringLiteral => Lexeme.stringLiteral
  | _, .name => Lexeme.name

/- Every phrase of the grammar takes something. -/
theorem Phrase.advances
    {α : Type}
    (phrase : Phrase α) :
    Advances phrase.reader := by
  have hInner := advances_expression.trims
  cases phrase with
  | fullQuery => exact advances_fullQuery
  | comprehension => exact advances_comprehension
  | laidClause => exact advances_laidClause
  | clause => exact advances_clause
  | ordering => exact advances_ordering
  | laidCall => exact advances_laidCall
  | operatorCall => exact advances_operatorCall
  | arguments => exact advances_arguments hInner
  | expression => exact advances_expression
  | level n => exact advances_readerAt hInner n
  | accessor => exact advances_accessor hInner
  | primary => exact advances_primary hInner
  | timestamp => exact advances_timestamp
  | span => exact advances_span
  | number => exact advances_number
  | stringLiteral => exact advances_stringLiteral
  | name => exact advances_name

/-
  Every phrase that is read leaves a proper suffix of the text.
  So expressions may ask for themselves without a bound on
  their depth, and repetitions of phrases, separated phrases
  and chains of phrases end without a question for progress:
  no nesting is deeper, and no loop longer, than the text.
-/
theorem phrases_advance :
    (∀ {α : Type} (phrase : Phrase α) (s rest : List Char)
      (value : α), phrase.reader s = .ok value rest →
        rest <:+ s ∧ rest ≠ s) ∧
    (disjunction expression = expression ∧
      ∀ (base : Reader Node) (s : List Char),
        unrolled base (s.length + 1) s = expression s) ∧
    (∀ {α : Type} (phrase : Phrase α) (late : Reply (List α))
      (s : List Char),
        manyWithin phrase.reader late (s.length + 1) s =
          many phrase.reader s ∧
        sepTailWithin phrase.reader comma late (s.length + 1) s =
          sepTail phrase.reader comma s) ∧
    (∀ (operand : Phrase Node) (level : Nat) (late : Reply Node)
      (left : Node) (s : List Char),
        chainTailWithin operand.reader (operatorAt level) late
            (s.length + 1) left s =
          chainTail operand.reader (operatorAt level) left s) := by
  refine ⟨?_, ⟨disjunction_expression, ?_⟩, ?_, ?_⟩
  · intro α phrase s rest value hRead
    rcases phrase.advances s value rest hRead with
      ⟨hSuffix, hShorter⟩
    refine ⟨hSuffix, ?_⟩
    rintro rfl
    exact Nat.lt_irrefl _ hShorter
  · intro base s
    exact unrolled_eq base (Nat.lt_succ_self _)
  · intro α phrase late s
    exact ⟨manyWithin_eq phrase.advances late
        (Nat.lt_succ_self _),
      sepTailWithin_eq phrase.advances advances_comma.trims late
        (Nat.lt_succ_self _)⟩
  · intro operand level late left s
    exact chainTailWithin_eq operand.advances
      (advances_operatorAt level).trims late
      (Nat.lt_succ_self _) left

/- An expression without layout, of signs and brackets. -/
def denseNode : Node :=
  .binary .orElse (.not (.ident "a"))
    (.index (.ident "b") (.literal (.int 1)))

/- Signs, operators and brackets without any blanks. -/
theorem phrases_advance_denseNode :
    Phrase.expression.reader
        ['!', 'a', '|', '|', 'b', '[', '1', ']', ')'] =
      .ok denseNode [')'] ∧
    ([')'] <:+ ['!', 'a', '|', '|', 'b', '[', '1', ']', ')'] ∧
      [')'] ≠ ['!', 'a', '|', '|', 'b', '[', '1', ']', ')']) := by
  let pad : Pad := ⟨[], by simp⟩
  have hText : denseNode.bare pad ++ [')'] =
      ['!', 'a', '|', '|', 'b', '[', '1', ']', ')'] := rfl
  have hEnds : Ends 0 [')'] :=
    ends_closing pad (.inl rfl) 0 []
  have hCanonical :
      denseNode.isCanonical Value.isPlain = true := by
    decide
  have hRead : Phrase.expression.reader
      (denseNode.bare pad ++ [')']) = .ok denseNode [')'] :=
    expression_bare pad hCanonical hEnds
  rw [hText] at hRead
  exact ⟨hRead, phrases_advance.1 .expression _ _ _ hRead⟩

end Grammar

end TypedFlux
