import TypedFlux.Proofs.Syntax.Primaries

/-
  Expressions, read back from their spelling.

  The reader of a level goes on where the printed expression
  ends.  For the operators that group to the left this needs
  more than an answer: the reader of the level has to stand
  in the middle of its chain, with the expression as its left
  operand.  The levels are joined from the tightest to the
  loosest, and the nesting of brackets by their length.

  Key definitions include:
    * `Grammar.readerAt`
    * `Grammar.ReadsAt`, `Grammar.ChainsAt`
    * `Grammar.Accesses`

  Key theorems include:
    * `Grammar.chains_binary`
    * `Grammar.accesses_node`
    * `Grammar.readable_node`
    * `Grammar.readsInside_nested`
    * `Grammar.expression_bare`
-/

------------------------------------------------------------
-- Parts of a Printed Expression
------------------------------------------------------------

namespace TypedFlux

namespace Node

variable (pad : Pad)

/- A looser expression is put in parentheses. -/
theorem print_of_lt
    {level : Nat}
    {n : Node}
    (hLoose : n.level < level) :
    n.print pad level = bracket pad '(' ')' (n.bare pad) := by
  simp [print, enclose, hLoose]

/- One that binds tightly enough stands as it is. -/
theorem print_of_le
    {level : Nat}
    {n : Node}
    (hTight : level ≤ n.level) :
    n.print pad level = n.bare pad := by
  simp [print, enclose, Nat.not_lt.mpr hTight]

/- Only an operator's own level tells it from the next. -/
theorem print_succ
    {level : Nat}
    {n : Node}
    (hOther : n.level ≠ level) :
    n.print pad level = n.print pad (level + 1) := by
  by_cases hLoose : n.level < level
  · rw [print_of_lt pad hLoose,
      print_of_lt pad (Nat.lt_succ_of_lt hLoose)]
  · rw [print_of_le pad (by omega), print_of_le pad (by omega)]

/-
  Brackets make a text longer, so what is inside is shorter
  than what was read.
-/
theorem length_bracket
    (opening closing : Char)
    (text : List Char) :
    text.length + 2 ≤
      (bracket pad opening closing text).length := by
  simp only [bracket, List.length_cons, List.length_append,
    List.length_nil]
  omega

/-
  A printed expression and what follows it, taken apart as it
  is read: first of a member.
-/
theorem bare_field
    (base : Node)
    (member : String)
    (rest : List Char) :
    (Node.field base member).bare pad ++ rest =
      base.print pad 6 ++ '.' :: (member.toList ++ rest) := by
  simp [bare, print]

theorem bare_index
    (base key : Node)
    (rest : List Char) :
    (Node.index base key).bare pad ++ rest =
      base.print pad 6
        ++ (bracket pad '[' ']' (key.bare pad) ++ rest) := by
  simp [bare, print]

theorem bare_call
    (receiver : Node)
    (method : String)
    (args : List Node)
    (rest : List Char) :
    (Node.call receiver method args).bare pad ++ rest =
      receiver.print pad 6
        ++ '.' :: (method.toList
          ++ (bracket pad '(' ')' (items pad args)
            ++ rest)) := by
  simp [bare, print]

theorem bare_binary
    (op : BinaryOp)
    (left right : Node)
    (rest : List Char) :
    (Node.binary op left right).bare pad ++ rest =
      left.print pad op.leftLevel
        ++ (pad.chars ++ (op.symbol.toList
          ++ (pad.chars
            ++ (right.print pad (op.level + 1) ++ rest)))) := by
  simp [bare, print]

/- The operands of an operation are no longer than itself. -/
theorem length_left_le
    (op : BinaryOp)
    (left right : Node) :
    (left.print pad op.leftLevel).length ≤
      ((Node.binary op left right).bare pad).length := by
  have hBare := congrArg List.length
    (bare_binary pad op left right [])
  simp only [List.append_nil, List.length_append] at hBare
  omega

theorem length_right_le
    (op : BinaryOp)
    (left right : Node) :
    (right.print pad (op.level + 1)).length ≤
      ((Node.binary op left right).bare pad).length := by
  have hBare := congrArg List.length
    (bare_binary pad op left right [])
  simp only [List.append_nil, List.length_append] at hBare
  omega

end Node

end TypedFlux

------------------------------------------------------------
-- Levels
------------------------------------------------------------

namespace TypedFlux

namespace Grammar

open Lexeme Reader

/- The reader of the expressions of a level. -/
def readerAt (inner : Reader Node) : Nat → Reader Node
  | 0 => disjunction inner
  | 1 => conjunction inner
  | 2 => comparison inner
  | 3 => sum inner
  | 4 => product inner
  | 5 => unary inner
  | _ => accessed inner

/- The levels whose operators group to the left. -/
def Chained (level : Nat) : Prop :=
  level ≤ 4 ∧ level ≠ 2

/- At these levels the reader is a chain of the next one. -/
theorem readerAt_chained
    {level : Nat}
    (hChained : Chained level)
    (inner : Reader Node) :
    readerAt inner level =
      chain (readerAt inner (level + 1)) (operatorAt level) := by
  match level, hChained with
  | 0, _ => rfl
  | 1, _ => rfl
  | 2, ⟨_, hOther⟩ => exact absurd rfl hOther
  | 3, _ => rfl
  | 4, _ => rfl
  | level + 5, ⟨hLevel, _⟩ => omega

/- One more operand, joined to all before it. -/
theorem chainTail_of_ok
    {operand : Reader Node}
    {operator : Reader BinaryOp}
    {op : BinaryOp}
    {right : Node}
    {s between rest : List Char}
    (hOperator : operator (s.dropWhile Text.isLayout) =
      .ok op between)
    (hOperand : operand (between.dropWhile Text.isLayout) =
      .ok right rest)
    (hShorter : rest.length < s.length)
    (left : Node) :
    chainTail operand operator left s =
      chainTail operand operator (.binary op left right)
        rest := by
  rw [chainTail, hOperator]
  simp only [hOperand, hShorter, if_true]

/-
  A chain ends where no operator follows. The blanks there are
  not taken.
-/
theorem chainTail_of_misses
    {operand : Reader Node}
    {operator : Reader BinaryOp}
    {s : List Char}
    (hMiss : operator.Misses (s.dropWhile Text.isLayout))
    (left : Node) :
    chainTail operand operator left s = .ok left s := by
  rcases hMiss with ⟨fault, hMiss⟩
  rw [chainTail, hMiss]

/- The right side of a comparison. -/
def compared (inner : Reader Node) : Reader (BinaryOp × Node) := do
  layout
  let op ← comparisonOperator
  layout
  let right ← sum inner
  return (op, right)

/- A comparison has one operator and does not go on. -/
theorem comparison_of_ok
    {inner : Reader Node}
    {op : BinaryOp}
    {left right : Node}
    {s middle between rest : List Char}
    (hLeft : sum inner s = .ok left middle)
    (hOperator :
      comparisonOperator (middle.dropWhile Text.isLayout) =
        .ok op between)
    (hRight : sum inner (between.dropWhile Text.isLayout) =
      .ok right rest) :
    comparison inner s = .ok (.binary op left right) rest := by
  have hCompared : compared inner middle =
      .ok (op, right) rest := by
    unfold compared
    rw [bind_of_ok (show layout middle = .ok () _ from rfl),
      bind_of_ok hOperator,
      bind_of_ok (show layout between = .ok () _ from rfl),
      bind_of_ok hRight, pure_apply]
  unfold comparison
  rw [bind_of_ok hLeft]
  exact bind_of_ok (optional_of_ok hCompared)

/- Without an operator it is a sum. -/
theorem comparison_of_misses
    {inner : Reader Node}
    {left : Node}
    {s rest : List Char}
    (hLeft : sum inner s = .ok left rest)
    (hMiss : comparisonOperator.Misses
      (rest.dropWhile Text.isLayout)) :
    comparison inner s = .ok left rest := by
  have hNone : (compared inner).Misses rest := by
    unfold compared
    exact misses_bind_of_ok
      (show layout rest = .ok () _ from rfl) (hMiss.bind _)
  unfold comparison
  rw [bind_of_ok hLeft]
  exact bind_of_ok (optional_of_misses hNone)

theorem length_symbol
    (op : BinaryOp) :
    0 < op.symbol.toList.length := by
  cases op <;> decide

/- Layout before an operator is dropped. -/
theorem dropWhile_operator
    (pad : Pad)
    (op : BinaryOp)
    (s : List Char) :
    (pad.chars ++ (op.symbol.toList ++ s)).dropWhile
        Text.isLayout =
      op.symbol.toList ++ s := by
  apply dropWhile_run pad.layout
  cases op <;> exact (avoids_cons _ _ _).mpr rfl

/- Blanks may stand between a sign and its operand. -/
theorem unary_not
    {inner : Reader Node}
    {operand : Node}
    {run s rest : List Char}
    (hRun : ∀ c ∈ run, Text.isLayout c = true)
    (hFirst : Avoids Text.isLayout s)
    (hRead : unary inner s = .ok operand rest) :
    unary inner ('!' :: (run ++ s)) =
      .ok (.not operand) rest := by
  rw [unary, dropWhile_run hRun hFirst, hRead]

theorem unary_negate
    {inner : Reader Node}
    {operand : Node}
    {run s rest : List Char}
    (hRun : ∀ c ∈ run, Text.isLayout c = true)
    (hFirst : Avoids Text.isLayout s)
    (hRead : unary inner s = .ok operand rest) :
    unary inner ('-' :: (run ++ s)) =
      .ok (.negate operand) rest := by
  rw [unary, dropWhile_run hRun hFirst, hRead]

/- Where no sign is, there is no unary operation. -/
theorem unary_of_ne
    {c : Char}
    (hNot : c ≠ '!')
    (hMinus : c ≠ '-')
    (inner : Reader Node)
    (s : List Char) :
    unary inner (c :: s) = accessed inner (c :: s) := by
  rw [unary]
  · rintro rest ⟨⟩
    exact hNot rfl
  · rintro rest ⟨⟩
    exact hMinus rfl

/-
  What holds of accessed primaries and is kept by a sign holds
  of the answer to every run of signs.
-/
theorem unary_induction
    {inner : Reader Node}
    {P : List Char → Reply Node → Prop}
    (hAccessed : ∀ s, P s (accessed inner s))
    (hNot : ∀ s n rest,
      P (s.dropWhile Text.isLayout) (.ok n rest) →
        P ('!' :: s) (.ok (.not n) rest))
    (hNegate : ∀ s n rest,
      P (s.dropWhile Text.isLayout) (.ok n rest) →
        P ('-' :: s) (.ok (.negate n) rest))
    (hCut : ∀ c s fault,
      P (s.dropWhile Text.isLayout) (.cut fault) →
        P (c :: s) (.cut fault))
    (s : List Char) :
    P s (unary inner s) := by
  fun_induction unary inner s with
  | case1 s n rest hOperand ih =>
      exact hNot s n rest (hOperand ▸ ih)
  | case4 s n rest hOperand ih =>
      exact hNegate s n rest (hOperand ▸ ih)
  | case2 | case5 | case7 => exact hAccessed _
  | case3 s fault hOperand ih | case6 s fault hOperand ih =>
      exact hCut _ s fault (hOperand ▸ ih)

/- Nothing at the tightest level begins with a sign. -/
theorem unary_of_leads
    {s : List Char}
    (hLeads : Node.Leads 6 s)
    (inner : Reader Node) :
    unary inner s = accessed inner s := by
  rcases hLeads with ⟨c, cs, rfl, hOpens | ⟨hBelow, _⟩⟩
  · apply unary_of_ne
    · rintro rfl
      simp [opens, isNameStart] at hOpens
    · rintro rfl
      simp [opens, isNameStart] at hOpens
  · exact absurd hBelow (Nat.lt_irrefl 6)

end Grammar

end TypedFlux

------------------------------------------------------------
-- Reading at a Level
------------------------------------------------------------

namespace TypedFlux

namespace Grammar

open Lexeme Reader

variable {pad : Pad}
variable {inner : Reader Node}
variable {bound : Nat}

/- The reader of a level reads an expression of the level. -/
def ReadsAt
    (pad : Pad)
    (inner : Reader Node)
    (bound level : Nat)
    (n : Node) : Prop :=
  ∀ rest : List Char, (n.print pad level).length ≤ bound →
    Ends level rest →
      readerAt inner level (n.print pad level ++ rest) =
        .ok n rest

/-
  The reader of a level takes an expression as the left
  operand of what follows.
-/
def ChainsAt
    (pad : Pad)
    (inner : Reader Node)
    (bound level : Nat)
    (n : Node) : Prop :=
  ∀ rest : List Char, (n.print pad level).length ≤ bound →
    Ends (level + 1) rest →
      readerAt inner level (n.print pad level ++ rest) =
        chainTail (readerAt inner (level + 1))
          (operatorAt level) n rest

/- An expression is read up to the accessors behind it. -/
def Accesses
    (pad : Pad)
    (inner : Reader Node)
    (bound : Nat)
    (n : Node) : Prop :=
  ∀ rest : List Char, (n.print pad 6).length ≤ bound →
    Breaks rest →
      accessed inner (n.print pad 6 ++ rest) =
        accesses inner n rest

/- Accessors are read up to the last one. -/
theorem Accesses.reads
    {n : Node}
    (hAccesses : Accesses pad inner bound n) :
    ReadsAt pad inner bound 6 n := by
  intro rest hFits hEnds
  have hAvoids : ∀ c : Char, c = '.' ∨ c = '[' →
      Avoids (· == c) rest := by
    intro c hOpening d hHead
    have hNone := hEnds.accessor d hHead
    simp only [Bool.or_eq_false_iff] at hNone
    rcases hOpening with rfl | rfl
    · exact hNone.1
    · exact hNone.2
  have hMiss := accessor_misses (hAvoids '.' (.inl rfl))
    (hAvoids '[' (.inr rfl)) inner
  change accessed inner _ = _
  rw [hAccesses rest hFits hEnds.breaks,
    accesses_of_misses hMiss]

/- A chain is read up to its last operand. -/
theorem ChainsAt.reads
    {level : Nat}
    {n : Node}
    (hLevel : level ≤ 4)
    (hChains : ChainsAt pad inner bound level n) :
    ReadsAt pad inner bound level n := by
  intro rest hFits hEnds
  rw [hChains rest hFits (hEnds.mono (Nat.le_succ level)),
    chainTail_of_misses (hEnds.operatorAt_misses hLevel)]

/- A tighter expression is a chain without operators. -/
theorem ReadsAt.chains
    {level : Nat}
    {n : Node}
    (hChained : Chained level)
    (hOther : n.level ≠ level)
    (hReads : ReadsAt pad inner bound (level + 1) n) :
    ChainsAt pad inner bound level n := by
  intro rest hFits hEnds
  rw [Node.print_succ pad hOther] at hFits ⊢
  rw [readerAt_chained hChained, chain]
  exact bind_of_ok (hReads rest hFits hEnds)

/- Layout before an operand is dropped. -/
theorem dropWhile_operand
    (pad : Pad)
    (level : Nat)
    {n : Node}
    (hCanonical : n.isCanonical Value.isPlain = true)
    (rest : List Char) :
    (pad.chars ++ (n.print pad level ++ rest)).dropWhile
        Text.isLayout =
      n.print pad level ++ rest := by
  have hLeads := (Node.leads_print pad level
    hCanonical).append rest
  exact dropWhile_run pad.layout hLeads.avoids_layout

/- An operator is read before its right operand. -/
theorem operatorAt_operand
    (pad : Pad)
    {op : BinaryOp}
    (level : Nat)
    {n : Node}
    (hOp : op.isCanonical = true)
    (hCanonical : n.isCanonical Value.isPlain = true)
    (rest : List Char) :
    operatorAt op.level (op.symbol.toList
        ++ (pad.chars ++ (n.print pad level ++ rest))) =
      .ok op (pad.chars ++ (n.print pad level ++ rest)) := by
  have hLeads := (Node.leads_print pad level
    hCanonical).append rest
  apply operatorAt_symbol hOp
  exact avoids_run rfl pad.layout
    (fun _ => hLeads.avoids_equals)

/- A chain goes on with an operator and its right operand. -/
theorem chains_binary
    {op : BinaryOp}
    {left right : Node}
    (hChained : Chained op.level)
    (hOp : op.isCanonical = true)
    (hCanonical : right.isCanonical Value.isPlain = true)
    (hLeft : ChainsAt pad inner bound op.level left)
    (hRight :
      ReadsAt pad inner bound (op.level + 1) right) :
    ChainsAt pad inner bound op.level
      (.binary op left right) := by
  intro rest hFits hEnds
  have hSame : op.leftLevel = op.level := by
    exact if_neg fun hComparison =>
      hChained.2 (BinaryOp.isComparison_iff.mp hComparison)
  have hLeftFits := Node.length_left_le pad op left right
  have hRightFits := Node.length_right_le pad op left right
  have hOperator := operatorAt_operand pad (op.level + 1) hOp
    hCanonical rest
  rw [Node.print_of_le pad (Nat.le_refl op.level)] at hFits ⊢
  have hOperand := hRight rest (by omega) hEnds
  rw [← dropWhile_operator pad] at hOperator
  rw [← dropWhile_operand pad _ hCanonical] at hOperand
  rw [hSame] at hLeftFits
  rw [Node.bare_binary, hSame,
    hLeft _ (by omega) (ends_operator pad (Nat.lt_succ_self _) _)]
  apply chainTail_of_ok hOperator hOperand
  have hSymbol := length_symbol op
  simp only [List.length_append]
  omega

/- A tighter expression is no comparison. -/
theorem ReadsAt.comparison
    {n : Node}
    (hOther : n.level ≠ 2)
    (hReads : ReadsAt pad inner bound 3 n) :
    ReadsAt pad inner bound 2 n := by
  intro rest hFits hEnds
  rw [Node.print_succ pad hOther] at hFits ⊢
  exact comparison_of_misses
    (hReads rest hFits (hEnds.mono (by decide)))
    (hEnds.operatorAt_misses (by decide))

/- One comparison is read with both its operands. -/
theorem reads_comparison
    {op : BinaryOp}
    {left right : Node}
    (hLevel : op.level = 2)
    (hOp : op.isCanonical = true)
    (hCanonical : right.isCanonical Value.isPlain = true)
    (hLeft : ReadsAt pad inner bound 3 left)
    (hRight : ReadsAt pad inner bound 3 right) :
    ReadsAt pad inner bound 2 (.binary op left right) := by
  intro rest hFits hEnds
  have hSide : op.leftLevel = 3 := by
    rw [BinaryOp.leftLevel,
      if_pos (BinaryOp.isComparison_iff.mpr hLevel), hLevel]
  have hLeftFits := Node.length_left_le pad op left right
  have hRightFits := Node.length_right_le pad op left right
  have hOperator := operatorAt_operand pad 3 hOp hCanonical
    rest
  rw [Node.print_of_le pad (Nat.le_of_eq hLevel.symm)] at hFits ⊢
  rw [hSide] at hLeftFits
  simp only [hLevel, Nat.reduceAdd] at hRightFits
  have hAfter : Ends 3 (pad.chars ++ (op.symbol.toList
      ++ (pad.chars ++ (right.print pad 3 ++ rest)))) :=
    ends_operator pad (by omega) _
  have hFirst := hLeft _ (by omega) hAfter
  have hOperand := hRight rest (by omega)
    (hEnds.mono (by decide))
  rw [← dropWhile_operator pad, hLevel] at hOperator
  rw [← dropWhile_operand pad _ hCanonical] at hOperand
  rw [Node.bare_binary, hSide, hLevel]
  exact comparison_of_ok hFirst hOperator hOperand

/- A tighter expression has no sign. -/
theorem ReadsAt.unary
    {n : Node}
    (hCanonical : n.isCanonical Value.isPlain = true)
    (hOther : n.level ≠ 5)
    (hReads : ReadsAt pad inner bound 6 n) :
    ReadsAt pad inner bound 5 n := by
  intro rest hFits hEnds
  rw [Node.print_succ pad hOther] at hFits ⊢
  have hLeads := (Node.leads_print pad 6
    hCanonical).append rest
  exact (unary_of_leads hLeads inner).trans
    (hReads rest hFits (hEnds.mono (by decide)))

/- A sign is read with its operand. -/
theorem reads_signed
    {n operand : Node}
    {sign : Char}
    (hCanonical : operand.isCanonical Value.isPlain = true)
    (hPrint : n.print pad 5 =
      sign :: (pad.chars ++ operand.print pad 5))
    (hSign : ∀ s rest, Avoids Text.isLayout s →
      unary inner s = .ok operand rest →
        unary inner (sign :: (pad.chars ++ s)) = .ok n rest)
    (hOperand : ReadsAt pad inner bound 5 operand) :
    ReadsAt pad inner bound 5 n := by
  intro rest hFits hEnds
  have hLeads := (Node.leads_print pad 5
    hCanonical).append rest
  rw [hPrint] at hFits ⊢
  simp only [List.length_cons, List.length_append] at hFits
  rw [List.cons_append, List.append_assoc]
  exact hSign _ rest hLeads.avoids_layout
    (hOperand rest (by omega) hEnds)

/-
  A sign is read at its own level, and what is printed behind
  it cannot be looser.
-/
theorem reads_not
    {operand : Node}
    (hCanonical : operand.isCanonical Value.isPlain = true)
    (hOperand : ReadsAt pad inner bound 5 operand) :
    ReadsAt pad inner bound 5 (.not operand) :=
  reads_signed hCanonical rfl
    (fun _ _ => unary_not pad.layout) hOperand

theorem reads_negate
    {operand : Node}
    (hCanonical : operand.isCanonical Value.isPlain = true)
    (hOperand : ReadsAt pad inner bound 5 operand) :
    ReadsAt pad inner bound 5 (.negate operand) :=
  reads_signed hCanonical rfl
    (fun _ _ => unary_negate pad.layout) hOperand

end Grammar

end TypedFlux

------------------------------------------------------------
-- Reading Accessors
------------------------------------------------------------

namespace TypedFlux

namespace Grammar

open Lexeme Reader

variable {pad : Pad}
variable {inner : Reader Node}
variable {bound : Nat}

/- Accessors break off the primary before them. -/
theorem breaks_field
    {x : String}
    (hName : isName x = true)
    (rest : List Char) :
    Breaks ('.' :: (x.toList ++ rest)) where
  name := (avoids_cons _ _ _).mpr rfl
  point := by
    rintro text ⟨⟩
    rcases toList_of_isName hName with
      ⟨c, cs, hChars, hStart, _⟩
    rw [hChars]
    exact (avoids_cons _ c _).mpr (isDigit_of_isNameStart hStart)
  call := (avoids_cons _ _ _).mpr rfl

/- A bracket ends a name and a number. -/
theorem breaks_index
    (pad : Pad)
    (text rest : List Char) :
    Breaks (Node.bracket pad '[' ']' text ++ rest) where
  name := (avoids_cons _ _ _).mpr rfl
  point := by
    rintro text ⟨⟩
  call := (avoids_cons _ _ _).mpr rfl

/- Below the primaries an expression stands in parentheses. -/
theorem accesses_bracketed
    {n : Node}
    (hInner : ReadsInside pad inner bound)
    (hCanonical : n.isCanonical Value.isPlain = true)
    (hLoose : n.level < 6) :
    Accesses pad inner bound n := by
  intro rest hFits _
  have hLength := Node.length_bracket pad '(' ')' (n.bare pad)
  rw [Node.print_of_lt pad hLoose] at hFits ⊢
  exact accessed_of_primary
    (primary_paren hInner hCanonical (by omega) rest)

/- A member of what is read already. -/
theorem accesses_field
    {base : Node}
    {member : String}
    (hName : isName member = true)
    (hBase : Accesses pad inner bound base) :
    Accesses pad inner bound (.field base member) := by
  intro rest hFits hBreaks
  rw [Node.print_of_le pad (Nat.le_refl 6)] at hFits ⊢
  have hLength := congrArg List.length
    (Node.bare_field pad base member [])
  simp only [List.append_nil, List.length_append] at hLength
  rw [Node.bare_field,
    hBase _ (by omega) (breaks_field hName rest),
    accesses_of_ok (accessor_field hName hBreaks inner)]
  · rfl
  · simp only [List.length_cons, List.length_append]
    omega

/- The same with a key, which is read inside of brackets. -/
theorem accesses_index
    {base key : Node}
    (hInner : ReadsInside pad inner bound)
    (hKey : key.isCanonical Value.isPlain = true)
    (hBase : Accesses pad inner bound base) :
    Accesses pad inner bound (.index base key) := by
  intro rest hFits _
  rw [Node.print_of_le pad (Nat.le_refl 6)] at hFits ⊢
  have hLength := congrArg List.length
    (Node.bare_index pad base key [])
  have hBracket := Node.length_bracket pad '[' ']' (key.bare pad)
  simp only [List.append_nil, List.length_append] at hLength
  rw [Node.bare_index, hBase _ (by omega) (breaks_index pad _ rest),
    accesses_of_ok (accessor_index hInner hKey (by omega) rest)]
  · rfl
  · simp only [List.length_append]
    omega

/-
  The same with arguments, which are read inside of
  parentheses.
-/
theorem accesses_call
    {receiver : Node}
    {method : String}
    {args : List Node}
    (hInner : ReadsInside pad inner bound)
    (hName : isName method = true)
    (hArgs : Node.areCanonical Value.isPlain args = true)
    (hReceiver : Accesses pad inner bound receiver) :
    Accesses pad inner bound (.call receiver method args) := by
  intro rest hFits _
  rw [Node.print_of_le pad (Nat.le_refl 6)] at hFits ⊢
  have hLength := congrArg List.length
    (Node.bare_call pad receiver method args [])
  have hBracket := Node.length_bracket pad '(' ')'
    (Node.items pad args)
  simp only [List.append_nil, List.length_append,
    List.length_cons] at hLength
  rw [Node.bare_call,
    hReceiver _ (by omega) (breaks_field hName _),
    accesses_of_ok
      (accessor_call hInner hName hArgs (by omega) rest)]
  · rfl
  · simp only [List.length_cons, List.length_append]
    omega

/- Every expression is read up to its accessors. -/
theorem accesses_node
    (hInner : ReadsInside pad inner bound)
    (n : Node)
    (hCanonical : n.isCanonical Value.isPlain = true) :
    Accesses pad inner bound n := by
  induction n with
  | literal v =>
      intro rest hFits hBreaks
      exact accessed_of_primary
        (primary_literal hCanonical hBreaks inner)
  | ident x =>
      intro rest hFits hBreaks
      simp only [Node.isCanonical, Bool.and_eq_true,
        bne_iff_ne] at hCanonical
      exact accessed_of_primary (primary_ident hCanonical.1.1
        hCanonical.1.2 hCanonical.2 hBreaks inner)
  | field base member ih =>
      simp only [Node.isCanonical, Bool.and_eq_true]
        at hCanonical
      exact accesses_field hCanonical.2 (ih hCanonical.1)
  | index base key ih _ =>
      simp only [Node.isCanonical, Bool.and_eq_true]
        at hCanonical
      exact accesses_index hInner hCanonical.2
        (ih hCanonical.1)
  | call receiver method args ih _ =>
      simp only [Node.isCanonical, Bool.and_eq_true]
        at hCanonical
      exact accesses_call hInner hCanonical.1.2 hCanonical.2
        (ih hCanonical.1.1)
  | binary op left right _ _ =>
      exact accesses_bracketed hInner hCanonical
        (Node.level_lt_six op)
  | not operand _ =>
      exact accesses_bracketed hInner hCanonical
        (by simp [Node.level])
  | negate operand _ =>
      exact accesses_bracketed hInner hCanonical
        (by simp [Node.level])
  | array items _ =>
      intro rest hFits _
      rw [Node.print_of_le pad (Nat.le_refl 6)] at hFits ⊢
      rw [Node.bare] at hFits ⊢
      have hLength := Node.length_bracket pad '[' ']'
        (Node.items pad items)
      exact accessed_of_primary
        (primary_array hInner hCanonical (by omega) rest)

end Grammar

end TypedFlux

------------------------------------------------------------
-- Reading Expressions
------------------------------------------------------------

namespace TypedFlux

namespace Grammar

open Lexeme Reader

variable {pad : Pad}
variable {inner : Reader Node}
variable {bound : Nat}

/- An expression is read at all levels, also as a left operand. -/
structure Readable
    (pad : Pad)
    (inner : Reader Node)
    (bound : Nat)
    (n : Node) : Prop where
  reads : ∀ level, level ≤ 6 → ReadsAt pad inner bound level n
  chains : ∀ level, Chained level →
    ChainsAt pad inner bound level n

/-
  An expression is read at all levels once it is read at its
  own: above that it stands in parentheses, and below, nothing
  of the looser levels is found behind it.
-/
theorem readable_of_own
    {n : Node}
    (hCanonical : n.isCanonical Value.isPlain = true)
    (hAccesses : Accesses pad inner bound n)
    (hReads : n.level = 2 ∨ n.level = 5 →
      ReadsAt pad inner bound n.level n)
    (hChains : Chained n.level →
      ChainsAt pad inner bound n.level n) :
    Readable pad inner bound n := by
  have hChainStep : ∀ level, Chained level →
      ReadsAt pad inner bound (level + 1) n →
        ChainsAt pad inner bound level n := by
    intro level hChained hNext
    by_cases hOwn : n.level = level
    · exact hOwn ▸ hChains (hOwn ▸ hChained)
    · exact hNext.chains hChained hOwn
  have hStep : ∀ level, level < 6 →
      ReadsAt pad inner bound (level + 1) n →
        ReadsAt pad inner bound level n := by
    intro level hLevel hNext
    by_cases hChained : Chained level
    · exact (hChainStep level hChained hNext).reads hChained.1
    · have hSingle : level = 2 ∨ level = 5 := by
        unfold Chained at hChained
        omega
      by_cases hOwn : n.level = level
      · exact hOwn ▸ hReads (hOwn ▸ hSingle)
      · rcases hSingle with rfl | rfl
        · exact hNext.comparison hOwn
        · exact hNext.unary hCanonical hOwn
  -- from the primaries down to the disjunctions
  have hAll : ∀ depth, depth ≤ 6 →
      ReadsAt pad inner bound (6 - depth) n := by
    intro depth hDepth
    induction depth with
    | zero => exact hAccesses.reads
    | succ depth ih =>
        have hNext : 6 - depth = 6 - (depth + 1) + 1 := by
          omega
        have hRead := ih (by omega)
        rw [hNext] at hRead
        exact hStep _ (by omega) hRead
  have hReadsAll : ∀ level, level ≤ 6 →
      ReadsAt pad inner bound level n := by
    intro level hLevel
    have hRead := hAll (6 - level) (by omega)
    rwa [Nat.sub_sub_self hLevel] at hRead
  refine ⟨hReadsAll, ?_⟩
  intro level hChained
  exact hChainStep level hChained
    (hReadsAll _ (by unfold Chained at hChained; omega))

/- What needs no parentheses is read at all levels. -/
theorem readable_of_level
    {n : Node}
    (hInner : ReadsInside pad inner bound)
    (hCanonical : n.isCanonical Value.isPlain = true)
    (hLevel : n.level = 6) :
    Readable pad inner bound n := by
  apply readable_of_own hCanonical
    (accesses_node hInner n hCanonical)
  · rw [hLevel]
    omega
  · rw [hLevel]
    unfold Chained
    omega

/- Every expression is read at all levels. -/
theorem readable_node
    (hInner : ReadsInside pad inner bound)
    (n : Node)
    (hCanonical : n.isCanonical Value.isPlain = true) :
    Readable pad inner bound n := by
  induction n with
  | literal v => exact readable_of_level hInner hCanonical rfl
  | ident x => exact readable_of_level hInner hCanonical rfl
  | field base member _ =>
      exact readable_of_level hInner hCanonical rfl
  | index base key _ _ =>
      exact readable_of_level hInner hCanonical rfl
  | call receiver method args _ _ =>
      exact readable_of_level hInner hCanonical rfl
  | array items _ =>
      exact readable_of_level hInner hCanonical rfl
  | binary op left right ihLeft ihRight =>
      have hParts := hCanonical
      simp only [Node.isCanonical, Bool.and_eq_true] at hParts
      rcases hParts with ⟨⟨hOp, hLeft⟩, hRight⟩
      apply readable_of_own hCanonical
        (accesses_node hInner _ hCanonical)
      · intro hSingle
        change op.level = 2 ∨ op.level = 5 at hSingle
        have hLevel : op.level = 2 := by
          cases op <;> simp_all [BinaryOp.level]
        change ReadsAt pad inner bound op.level _
        rw [hLevel]
        exact reads_comparison hLevel hOp hRight
          ((ihLeft hLeft).reads 3 (by decide))
          ((ihRight hRight).reads 3 (by decide))
      · intro hChained
        exact chains_binary hChained hOp hRight
          ((ihLeft hLeft).chains _ hChained)
          ((ihRight hRight).reads _ (Node.level_lt_six op))
  | not operand ih =>
      apply readable_of_own hCanonical
        (accesses_node hInner _ hCanonical)
      · intro _
        exact reads_not hCanonical
          ((ih hCanonical).reads 5 (by decide))
      · intro hChained
        exact absurd hChained.1 (by simp [Node.level])
  | negate operand ih =>
      apply readable_of_own hCanonical
        (accesses_node hInner _ hCanonical)
      · intro _
        exact reads_negate hCanonical
          ((ih hCanonical).reads 5 (by decide))
      · intro hChained
        exact absurd hChained.1 (by simp [Node.level])

------------------------------------------------------------
-- Nesting
------------------------------------------------------------

/- Nothing is read where a bracket closes. -/
theorem primary_misses_closing
    {c : Char}
    (hClosing : c = ')' ∨ c = ']')
    (inner : Reader Node)
    (rest : List Char) :
    (primary inner).Misses (c :: rest) := by
  have hHead : ∀ p : Char → Bool, p ')' = false →
      p ']' = false → Avoids p (c :: rest) := by
    intro p hRound hSquare
    rcases hClosing with rfl | rfl
    · exact (avoids_cons p _ rest).mpr hRound
    · exact (avoids_cons p _ rest).mpr hSquare
  have hPlain : plainPrimary.Misses (c :: rest) :=
    plainPrimary_misses (span_misses (hHead _ rfl rfl))
      (number_misses (hHead _ rfl rfl)) (hHead _ rfl rfl)
      (hHead _ rfl rfl)
  have hAtom : atom.Misses (c :: rest) :=
    ((timestamp_misses (hHead _ rfl rfl)).bind _).orElse hPlain
  rcases hAtom with ⟨fault, hAtom⟩
  exact ⟨fault, (primary_of_avoids (hHead _ rfl rfl)
    (hHead _ rfl rfl) inner).trans hAtom⟩

/-
  No expression begins with a closing bracket, so that an
  empty list of arguments is read as one.
-/
theorem disjunction_misses_closing
    {c : Char}
    (hClosing : c = ')' ∨ c = ']')
    (inner : Reader Node)
    (rest : List Char) :
    (disjunction inner).Misses (c :: rest) := by
  have hAccessed : (accessed inner).Misses (c :: rest) :=
    (primary_misses_closing hClosing inner rest).bind _
  have hUnary : Reader.Misses (unary inner) (c :: rest) := by
    rcases hAccessed with ⟨fault, hAccessed⟩
    refine ⟨fault, (unary_of_ne ?_ ?_ inner rest).trans hAccessed⟩
    · rcases hClosing with rfl | rfl <;> decide
    · rcases hClosing with rfl | rfl <;> decide
  exact (((((hUnary.bind _).bind _).bind _).bind _).bind _)

/- Brackets are read to the depth that a length allows. -/
theorem readsInside_nested
    (pad : Pad)
    (depth : Nat) :
    ReadsInside pad (nested depth) depth := by
  induction depth with
  | zero =>
      constructor
      · intro n rest _ hFits _
        exact absurd hFits (Nat.not_lt_zero _)
      · intro c rest _
        exact ⟨_, rfl⟩
  | succ depth ih =>
      -- what stands in brackets is shorter than the brackets
      constructor
      · intro n rest hCanonical hFits hEnds
        have hPrint := Node.print_of_le pad (Nat.zero_le n.level)
        have hRead := (readable_node ih n hCanonical).reads 0
          (by decide) rest
        rw [hPrint] at hRead
        exact hRead (Nat.le_of_lt_succ hFits) hEnds
      · intro c rest hClosing
        exact disjunction_misses_closing hClosing _ rest

/- An expression is read back from its spelling. -/
theorem expression_bare
    (pad : Pad)
    {n : Node}
    {rest : List Char}
    (hCanonical : n.isCanonical Value.isPlain = true)
    (hEnds : Ends 0 rest) :
    expression (n.bare pad ++ rest) = .ok n rest := by
  have hInside := readsInside_nested pad
    ((n.bare pad ++ rest).length + 1)
  apply hInside.reads n rest hCanonical _ hEnds
  simp only [List.length_append]
  omega

end Grammar

end TypedFlux
