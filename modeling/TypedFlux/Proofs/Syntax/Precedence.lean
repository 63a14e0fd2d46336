import TypedFlux.Proofs.Syntax.Printing
import TypedFlux.Syntax.Grammar

/-
  Where a printed expression begins and where it ends.

  The first character of an expression tells it from layout
  and from the rest of an operator.  What follows must not go
  on with a name, a call, an accessor, or an operator that
  binds at least as tightly as the place asks for.

  Key definitions include:
    * `Grammar.opens`
    * `Grammar.signLevel?`
    * `Grammar.Breaks`, `Grammar.Ends`
    * `Grammar.operatorAt`

  Key theorems include:
    * `Node.print_head`
    * `Grammar.ends_closing`, `Grammar.ends_operator`
    * `Grammar.operatorAt_symbol`
    * `Grammar.operatorAt_misses`
-/

------------------------------------------------------------
-- Printed Values
------------------------------------------------------------

namespace TypedFlux

open Lexeme

theorem Span.micros_ofMicros
    (n : Int64) :
    (Span.ofMicros n).micros = n := by
  have hWhole : (n.toInt * 1000).tdiv 1000 = n.toInt :=
    Int.mul_tdiv_cancel _ (by decide)
  simp [Span.micros, Span.ofMicros, hWhole, toInt64?_toInt]

/- A plain span is a number of microseconds. -/
theorem Value.span_of_isPlain
    {d : Span}
    (hPlain : (Value.span d).isPlain = true) :
    ∃ n : Int64, 0 ≤ n.toInt ∧ d = Span.ofMicros n := by
  simp only [Value.isPlain, Bool.and_eq_true,
    decide_eq_true_eq, beq_iff_eq] at hPlain
  rcases hPlain with ⟨⟨hNonneg, hWhole⟩, hHigh⟩
  have hMicros :
      (Int64.ofInt (d.total / 1000)).toInt = d.total / 1000 :=
    Int64.toInt_ofInt_of_le (by omega) (by omega)
  refine ⟨Int64.ofInt (d.total / 1000), ?_, ?_⟩
  · rw [hMicros]
    omega
  · have hTotal : d.total = d.total / 1000 * 1000 := by
      omega
    rcases d with ⟨total, hBounded⟩
    simp only [Span.ofMicros, Span.mk.injEq] at *
    rw [hMicros]
    exact hTotal

theorem Numeral.ofInt_of_nonneg
    {n : Int}
    (hNonneg : 0 ≤ n) :
    Numeral.ofInt n = Numeral.ofNat n.natAbs := by
  simp [Numeral.ofInt, Int.not_lt.mpr hNonneg]

/-
  A span is printed in its smallest unit, so that nothing of
  it is lost.
-/
theorem Value.print_span
    {n : Int64}
    (hNonneg : 0 ≤ n.toInt) :
    (Value.span (Span.ofMicros n)).print.toList =
      (Numeral.ofNat n.toInt.natAbs).toList ++ ['u', 's'] := by
  simp [Value.print, Value.text, Span.micros_ofMicros,
    Numeral.ofInt_of_nonneg hNonneg]

/- An integer without a sign is printed as its digits. -/
theorem Value.print_int
    {n : Int64}
    (hNonneg : 0 ≤ n.toInt) :
    (Value.int n).print.toList =
      (Numeral.ofNat n.toInt.natAbs).toList := by
  simp [Value.print, Value.text,
    Numeral.ofInt_of_nonneg hNonneg]

theorem Value.print_uint
    (n : UInt64) :
    (Value.uint n).print.toList =
      (Numeral.ofNat n.toNat).toList := by
  simp [Value.print, Value.text]

end TypedFlux

------------------------------------------------------------
-- First Characters
------------------------------------------------------------

namespace TypedFlux

open Lexeme

/- The characters that a primary begins with. -/
def Grammar.opens (c : Char) : Bool :=
  isNameStart c || c.isDigit || c == '\x22' || c == '('
    || c == '['

/- A literal begins with a letter, a digit or a quote. -/
theorem Value.print_head
    {v : Value}
    (hPlain : v.isPlain = true) :
    ∃ c cs, v.print.toList = c :: cs ∧
      Grammar.opens c = true := by
  have hNumeral : ∀ (n : Nat) (rest : List Char),
      ∃ c cs, (Numeral.ofNat n).toList ++ rest = c :: cs ∧
        Grammar.opens c = true := by
    intro n rest
    rcases toList_ofNat_cons n with ⟨c, cs, hChars, hDigit⟩
    refine ⟨c, cs ++ rest, by rw [hChars]; rfl, ?_⟩
    simp [Grammar.opens, hDigit]
  cases v with
  | bool b => cases b <;> exact ⟨_, _, rfl, rfl⟩
  | int n =>
      have hNonneg : 0 ≤ n.toInt := by
        simpa [Value.isPlain] using hPlain
      rw [Value.print_int hNonneg]
      simpa using hNumeral n.toInt.natAbs []
  | uint n =>
      rw [Value.print_uint]
      simpa using hNumeral n.toNat []
  | string s => exact ⟨_, _, toList_quote s, rfl⟩
  | span d =>
      rcases Value.span_of_isPlain hPlain with
        ⟨n, hNonneg, rfl⟩
      rw [Value.print_span hNonneg]
      exact hNumeral n.toInt.natAbs ['u', 's']
  | float x => simp [Value.isPlain] at hPlain
  | time t => simp [Value.isPlain] at hPlain
  | array items => simp [Value.isPlain] at hPlain
  | other s => simp [Value.isPlain] at hPlain

namespace Node

/- A first character; signs stand only below the primaries. -/
def Leads
    (level : Nat)
    (text : List Char) : Prop :=
  ∃ c cs, text = c :: cs ∧
    (Grammar.opens c = true ∨
      level < 6 ∧ (c = '!' ∨ c = '-'))

/- What a text begins with, any longer one begins with. -/
theorem Leads.append
    {level : Nat}
    {text : List Char}
    (hLeads : Leads level text)
    (rest : List Char) :
    Leads level (text ++ rest) := by
  rcases hLeads with ⟨c, cs, rfl, hFirst⟩
  exact ⟨c, cs ++ rest, rfl, hFirst⟩

/-
  Only the tightest level may not begin with a sign, so other
  levels lead each other.
-/
theorem Leads.mono
    {tight loose : Nat}
    {text : List Char}
    (hLeads : Leads tight text)
    (hLoose : tight < 6 → loose < 6) :
    Leads loose text := by
  rcases hLeads with ⟨c, cs, rfl, hOpens | ⟨hBelow, hSign⟩⟩
  · exact ⟨c, cs, rfl, .inl hOpens⟩
  · exact ⟨c, cs, rfl, .inr ⟨hLoose hBelow, hSign⟩⟩

/- Brackets lead at every level. -/
theorem leads_bracket
    (pad : Pad)
    {opening : Char}
    (closing : Char)
    (hOpens : Grammar.opens opening = true)
    (level : Nat)
    (text : List Char) :
    Leads level (bracket pad opening closing text) :=
  ⟨opening, _, rfl, .inl hOpens⟩

/- A looser expression gets parentheses, which lead it. -/
theorem Leads.enclose
    {n : Node}
    {text : List Char}
    (hLeads : Leads n.level text)
    (pad : Pad)
    (level : Nat) :
    Leads level (n.enclose pad level text) := by
  unfold Node.enclose
  split
  · exact leads_bracket pad ')' rfl level text
  · next hTight =>
      apply hLeads.mono
      omega

theorem level_lt_six
    (op : BinaryOp) :
    op.level < 6 := by
  cases op <;> decide

/- A printed expression leads at its own level. -/
theorem leads_bare
    (pad : Pad)
    (n : Node)
    (hCanonical : n.isCanonical Value.isPlain = true) :
    Leads n.level (n.bare pad) := by
  induction n with
  | literal v =>
      rcases Value.print_head hCanonical with
        ⟨c, cs, hChars, hOpens⟩
      exact ⟨c, cs, by rw [bare, hChars], .inl hOpens⟩
  | ident x =>
      simp only [isCanonical, Bool.and_eq_true] at hCanonical
      rcases toList_of_isName hCanonical.1.1 with
        ⟨c, cs, hChars, hStart, _⟩
      refine ⟨c, cs, by rw [bare, hChars], .inl ?_⟩
      simp [Grammar.opens, hStart]
  | field base member ih =>
      simp only [isCanonical, Bool.and_eq_true] at hCanonical
      rw [bare]
      exact ((ih hCanonical.1).enclose pad 6).append _
  | index base key ih _ =>
      simp only [isCanonical, Bool.and_eq_true] at hCanonical
      rw [bare]
      exact ((ih hCanonical.1).enclose pad 6).append _
  | call receiver method args ih _ =>
      simp only [isCanonical, Bool.and_eq_true] at hCanonical
      rw [bare]
      exact ((ih hCanonical.1.1).enclose pad 6).append _
  | binary op left right ihLeft _ =>
      simp only [isCanonical, Bool.and_eq_true] at hCanonical
      have hLeft :=
        (ihLeft hCanonical.1.2).enclose pad op.leftLevel
      rw [bare]
      simp only [List.append_assoc]
      exact (hLeft.append _).mono fun _ => level_lt_six op
  | not operand _ =>
      exact ⟨'!', _, rfl, .inr ⟨by simp [level], .inl rfl⟩⟩
  | negate operand _ =>
      exact ⟨'-', _, rfl, .inr ⟨by simp [level], .inr rfl⟩⟩
  | array items _ =>
      rw [bare]
      exact leads_bracket pad ']' rfl _ _

/- It leads at every level once parentheses are set. -/
theorem leads_print
    (pad : Pad)
    (level : Nat)
    {n : Node}
    (hCanonical : n.isCanonical Value.isPlain = true) :
    Leads level (n.print pad level) :=
  (leads_bare pad n hCanonical).enclose pad level

/- No expression begins with layout. -/
theorem Leads.avoids_layout
    {level : Nat}
    {text : List Char}
    (hLeads : Leads level text) :
    Avoids Text.isLayout text := by
  rcases hLeads with ⟨c, cs, rfl, hFirst⟩
  rw [avoids_cons, Bool.eq_false_iff]
  intro hLayout
  have hOpens : Grammar.opens c = false :=
    false_of_isLayout rfl hLayout
  rcases hFirst with hFirst | ⟨_, rfl | rfl⟩
  · simp [hFirst] at hOpens
  · exact absurd hLayout (by decide)
  · exact absurd hLayout (by decide)

/- No expression goes on with an operator. -/
theorem Leads.avoids_equals
    {level : Nat}
    {text : List Char}
    (hLeads : Leads level text) :
    Avoids (· == '=') text := by
  rcases hLeads with ⟨c, cs, rfl, hFirst⟩
  rw [avoids_cons, beq_eq_false_iff_ne]
  rintro rfl
  simp [Grammar.opens, isNameStart] at hFirst

end Node

end TypedFlux

------------------------------------------------------------
-- Ends of Expressions
------------------------------------------------------------

namespace TypedFlux

namespace Grammar

open Lexeme

/- The level of the operators that begin with a character. -/
def signLevel? : Char → Option Nat
  | '|' => some 0
  | '&' => some 1
  | '=' | '!' | '<' | '>' => some 2
  | '+' | '-' => some 3
  | '*' | '/' | '%' => some 4
  | _ => none

/- A text that does not go on with a primary. -/
structure Breaks (s : List Char) : Prop where
  name : Avoids isNameChar s
  point : NoFraction s
  call : Avoids (· == '(') (s.dropWhile Text.isLayout)

/- A text that does not go on with an expression of a level. -/
structure Ends
    (level : Nat)
    (s : List Char) : Prop where
  name : Avoids isNameChar s
  accessor : Avoids (fun c => c == '.' || c == '[') s
  call : Avoids (· == '(') (s.dropWhile Text.isLayout)
  sign :
    ∀ c ∈ (s.dropWhile Text.isLayout).head?,
      ∀ k ∈ signLevel? c, k < level

/- Where an expression ends, so do its last word and number. -/
theorem Ends.breaks
    {level : Nat}
    {s : List Char}
    (hEnds : Ends level s) :
    Breaks s where
  name := hEnds.name
  point := by
    rintro rest rfl
    have hAccessor := hEnds.accessor
    simp at hAccessor
  call := hEnds.call

/- What ends a loose expression ends a tight one. -/
theorem Ends.mono
    {loose tight : Nat}
    {s : List Char}
    (hEnds : Ends loose s)
    (hLevels : loose ≤ tight) :
    Ends tight s where
  name := hEnds.name
  accessor := hEnds.accessor
  call := hEnds.call
  sign := fun c hHead k hSign =>
    Nat.lt_of_lt_of_le (hEnds.sign c hHead k hSign) hLevels

/- After layout, the first character alone decides. -/
theorem ends_run
    {run s : List Char}
    {c : Char}
    {level : Nat}
    (hRun : ∀ d ∈ run, Text.isLayout d = true)
    (hLayout : Text.isLayout c = false)
    (hFirst : run ≠ [] ∨
      (isNameChar c || c == '.' || c == '[') = false)
    (hCall : c ≠ '(')
    (hSign : ∀ k ∈ signLevel? c, k < level) :
    Ends level (run ++ c :: s) := by
  have hDrop :
      (run ++ c :: s).dropWhile Text.isLayout = c :: s :=
    dropWhile_run hRun ((avoids_cons _ c s).mpr hLayout)
  have hOwn : run = [] →
      (isNameChar c || c == '.' || c == '[') = false := by
    intro hEmpty
    exact hFirst.resolve_left (fun hNonempty =>
      hNonempty hEmpty)
  constructor
  · apply avoids_run rfl hRun
    intro hEmpty
    have hSelf := hOwn hEmpty
    simp only [Bool.or_eq_false_iff] at hSelf
    exact (avoids_cons _ c s).mpr hSelf.1.1
  · apply avoids_run rfl hRun
    intro hEmpty
    have hSelf := hOwn hEmpty
    simp only [Bool.or_eq_false_iff] at hSelf
    exact (avoids_cons _ c s).mpr
      (Bool.or_eq_false_iff.mpr ⟨hSelf.1.2, hSelf.2⟩)
  · rw [hDrop]
    simpa using hCall
  · rw [hDrop]
    intro d hMem k hLevel
    have hEq : c = d := by simpa using hMem
    exact hSign k (hEq ▸ hLevel)

/- A bracket or a comma ends every expression. -/
theorem ends_closing
    (pad : Pad)
    {c : Char}
    (hClosing : c = ')' ∨ c = ']' ∨ c = ',')
    (level : Nat)
    (s : List Char) :
    Ends level (pad.chars ++ c :: s) := by
  rcases hClosing with rfl | rfl | rfl <;>
    exact ends_run pad.layout rfl (.inr rfl) (by decide)
      (by simp [signLevel?])

theorem signLevel?_of_isNameStart
    {c : Char}
    (hLetter : isNameStart c = true) :
    signLevel? c = none := by
  unfold signLevel?
  split <;> simp [isNameStart] at hLetter
  rfl

/- A word ends every expression before it. -/
theorem ends_gap
    (gap : Gap)
    {c : Char}
    (hLetter : isNameStart c = true)
    (level : Nat)
    (s : List Char) :
    Ends level (gap.chars ++ c :: s) := by
  have hOther : ∀ d, isNameStart d = false → c ≠ d :=
    fun d hStart => ne_of_class hLetter hStart
  apply ends_run gap.layout _ (.inl gap.nonempty)
  · exact hOther _ rfl
  · intro k hSign
    rw [signLevel?_of_isNameStart hLetter] at hSign
    cases hSign
  · simp [Text.isLayout, hOther ' ' rfl, hOther '\t' rfl,
      hOther '\r' rfl, hOther '\n' rfl]

/- An operator ends its left operand. -/
theorem ends_operator
    (pad : Pad)
    {op : BinaryOp}
    {level : Nat}
    (hLevel : op.level < level)
    (s : List Char) :
    Ends level (pad.chars ++ (op.symbol.toList ++ s)) := by
  have hSymbol : ∃ c cs, op.symbol.toList = c :: cs ∧
      Text.isLayout c = false ∧
      (isNameChar c || c == '.' || c == '[') = false ∧
      c ≠ '(' ∧ signLevel? c = some op.level := by
    cases op <;> exact ⟨_, _, rfl, rfl, rfl, by decide, rfl⟩
  rcases hSymbol with
    ⟨c, cs, hChars, hLayout, hFirst, hCall, hSign⟩
  rw [hChars, List.cons_append]
  apply ends_run pad.layout hLayout (.inr hFirst) hCall
  intro k hMem
  rw [hSign] at hMem
  simp only [Option.mem_def, Option.some.injEq] at hMem
  omega

end Grammar

end TypedFlux

------------------------------------------------------------
-- Operators
------------------------------------------------------------

namespace TypedFlux

namespace Grammar

open Lexeme Reader

/- The reader of the operators of a level. -/
def operatorAt : Nat → Reader BinaryOp
  | 0 => operator "||" .orElse
  | 1 => operator "&&" .andAlso
  | 2 => comparisonOperator
  | 3 => operator "+" .add <|> operator "-" .subtract
  | _ =>
      operator "*" .multiply <|> operator "/" .divide
        <|> operator "%" .modulo

theorem operator_append
    (w : String)
    (op : BinaryOp)
    (s : List Char) :
    operator w op (w.toList ++ s) = .ok op s := by
  unfold operator
  rw [bind_of_ok (word_append w s), pure_apply]

/- An operator is not read where its text does not stand. -/
theorem operator_misses
    {w : String}
    (op : BinaryOp)
    {s : List Char}
    (hPrefix : ¬ w.toList <+: s) :
    (operator w op).Misses s := by
  unfold operator
  exact (word_misses hPrefix).bind _

/- An operator is passed over whose symbol does not stand there. -/
theorem operator_skip
    (w : String)
    (op : BinaryOp)
    {others : Reader BinaryOp}
    {s : List Char}
    {reply : Reply BinaryOp}
    (hPrefix : ¬ w.toList <+: s)
    (hOthers : others s = reply) :
    (operator w op <|> others) s = reply :=
  (orElse_of_misses (operator_misses op hPrefix)).trans hOthers

/- An operator is read back from its symbol. -/
theorem operatorAt_symbol
    {op : BinaryOp}
    {s : List Char}
    (hCanonical : op.isCanonical = true)
    (hRest : Avoids (· == '=') s) :
    operatorAt op.level (op.symbol.toList ++ s) =
      .ok op s := by
  have hRead := operator_append op.symbol op s
  have hEquals : ∀ c, ¬ [c, '='] <+: c :: s := by
    rintro c ⟨rest, hAppend⟩
    simp only [List.cons_append, List.nil_append,
      List.cons.injEq, true_and] at hAppend
    rw [← hAppend] at hRest
    simp at hRest
  cases op with
  | orElse => exact hRead
  | andAlso => exact hRead
  | equal => exact orElse_of_ok hRead
  | notEqual =>
      exact operator_skip "==" _ (by simp [BinaryOp.symbol]) <|
        orElse_of_ok hRead
  | lessThanOrEqual =>
      exact operator_skip "==" _ (by simp [BinaryOp.symbol]) <|
        operator_skip "!=" _ (by simp [BinaryOp.symbol]) <|
        orElse_of_ok hRead
  | greaterThanOrEqual =>
      exact operator_skip "==" _ (by simp [BinaryOp.symbol]) <|
        operator_skip "!=" _ (by simp [BinaryOp.symbol]) <|
        operator_skip "<=" _ (by simp [BinaryOp.symbol]) <|
        orElse_of_ok hRead
  | lessThan =>
      exact operator_skip "==" _ (by simp [BinaryOp.symbol]) <|
        operator_skip "!=" _ (by simp [BinaryOp.symbol]) <|
        operator_skip "<=" _ (hEquals '<') <|
        operator_skip ">=" _ (by simp [BinaryOp.symbol]) <|
        orElse_of_ok hRead
  | greaterThan =>
      exact operator_skip "==" _ (by simp [BinaryOp.symbol]) <|
        operator_skip "!=" _ (by simp [BinaryOp.symbol]) <|
        operator_skip "<=" _ (by simp [BinaryOp.symbol]) <|
        operator_skip ">=" _ (hEquals '>') <|
        operator_skip "<" _ (by simp [BinaryOp.symbol]) hRead
  | add => exact orElse_of_ok hRead
  | subtract =>
      exact operator_skip "+" _ (by simp [BinaryOp.symbol]) hRead
  | multiply => exact orElse_of_ok hRead
  | divide =>
      exact operator_skip "*" _ (by simp [BinaryOp.symbol]) <|
        orElse_of_ok hRead
  | modulo =>
      exact operator_skip "*" _ (by simp [BinaryOp.symbol]) <|
        operator_skip "/" _ (by simp [BinaryOp.symbol]) hRead
  | and => simp [BinaryOp.isCanonical] at hCanonical
  | or => simp [BinaryOp.isCanonical] at hCanonical

/- Operators of a level begin with the signs of the level. -/
theorem operatorAt_misses
    {level : Nat}
    {s : List Char}
    (hLevel : level ≤ 4)
    (hSign : ∀ c ∈ s.head?, signLevel? c ≠ some level) :
    (operatorAt level).Misses s := by
  have hMiss : ∀ {w : String} (op : BinaryOp) {c : Char}
      {cs : List Char}, w.toList = c :: cs →
      signLevel? c = some level → (operator w op).Misses s := by
    intro w op c cs hChars hOwn
    apply operator_misses
    rintro ⟨rest, rfl⟩
    rw [hChars] at hSign
    exact hSign c (by simp) hOwn
  match level, hLevel with
  | 0, _ => exact hMiss .orElse rfl rfl
  | 1, _ => exact hMiss .andAlso rfl rfl
  | 2, _ =>
      exact (hMiss .equal rfl rfl).orElse <|
        (hMiss .notEqual rfl rfl).orElse <|
        (hMiss .lessThanOrEqual rfl rfl).orElse <|
        (hMiss .greaterThanOrEqual rfl rfl).orElse <|
        (hMiss .lessThan rfl rfl).orElse
          (hMiss .greaterThan rfl rfl)
  | 3, _ =>
      exact (hMiss .add rfl rfl).orElse
        (hMiss .subtract rfl rfl)
  | 4, _ =>
      exact (hMiss .multiply rfl rfl).orElse <|
        (hMiss .divide rfl rfl).orElse (hMiss .modulo rfl rfl)

/- After the end of an expression no operator is read. -/
theorem Ends.operatorAt_misses
    {level : Nat}
    {s : List Char}
    (hEnds : Ends level s)
    (hLevel : level ≤ 4) :
    (operatorAt level).Misses (s.dropWhile Text.isLayout) := by
  apply Grammar.operatorAt_misses hLevel
  intro c hHead hOwn
  exact absurd (hEnds.sign c hHead level hOwn)
    (Nat.lt_irrefl level)

end Grammar

end TypedFlux
