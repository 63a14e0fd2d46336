import TypedFlux.Proofs.Syntax.Expressions

/-
  Queries, read back from their spelling.

  Clauses are told apart by the word they begin with, and so
  an expression ends where layout and such a word follow.

  Key definitions include:
    * `Grammar.BeginsClause`
    * `Grammar.Closes`

  Key theorems include:
    * `Grammar.ordering_printKey`
    * `Grammar.clause_print`
    * `Grammar.comprehension_printBody`
    * `Grammar.fullQuery_print`
-/

------------------------------------------------------------
-- Layout before Words
------------------------------------------------------------

namespace TypedFlux

namespace Grammar

open Lexeme Reader

/- A name does not go on over layout. -/
theorem avoids_name_gap
    (gap : Gap)
    (s : List Char) :
    Avoids isNameChar (gap.chars ++ s) :=
  avoids_run rfl gap.layout
    (fun hEmpty => absurd hEmpty gap.nonempty)

/- A gap has at least one blank. -/
theorem layout1_gap
    (gap : Gap)
    {s : List Char}
    (hFirst : Avoids Text.isLayout s) :
    layout1 (gap.chars ++ s) = .ok () s :=
  layout1_run gap.layout gap.nonempty hFirst

/- A word of the grammar is read, and the layout behind it. -/
theorem keyword_gap
    (w : String)
    (gap : Gap)
    (s : List Char) :
    keyword w (w.toList ++ (gap.chars ++ s)) =
      .ok () (gap.chars ++ s) :=
  keyword_append w (avoids_name_gap gap s)

theorem avoids_layout_name
    {x : String}
    (hName : isName x = true)
    (s : List Char) :
    Avoids Text.isLayout (x.toList ++ s) := by
  rcases toList_of_isName hName with ⟨c, cs, hChars, hStart, _⟩
  rw [hChars, List.cons_append, avoids_cons,
    Bool.eq_false_iff]
  intro hLayout
  have hOther : isNameStart c = false :=
    false_of_isLayout rfl hLayout
  simp [hStart] at hOther

------------------------------------------------------------
-- Orders
------------------------------------------------------------

/- The direction behind a key. -/
def directed : Reader Direction := do
  layout1
  (do keyword "ascending"; return Direction.ascending)
    <|> (do keyword "descending"; return Direction.descending)

/- A text that goes on neither with a key nor its direction. -/
structure Closes (s : List Char) : Prop where
  ends : Ends 0 s
  undirected : directed.Misses s

/- What begins with neither letter is no direction. -/
theorem directed_misses
    {run s : List Char}
    (hRun : ∀ c ∈ run, Text.isLayout c = true)
    (hFirst : Avoids Text.isLayout s)
    (hUp : Avoids (· == 'a') s)
    (hDown : Avoids (· == 'd') s) :
    directed.Misses (run ++ s) := by
  unfold directed
  by_cases hEmpty : run = []
  · subst hEmpty
    exact (layout1_misses hFirst).bind _
  · apply misses_bind_of_ok (layout1_run hRun hEmpty hFirst)
    exact ((keyword_misses_of_head rfl hUp).bind _).orElse
      ((keyword_misses_of_head rfl hDown).bind _)

/- A comma ends an expression. -/
theorem closes_comma
    (pad : Pad)
    (s : List Char) :
    Closes (pad.chars ++ ',' :: s) where
  ends := ends_closing pad (.inr (.inr rfl)) 0 s
  undirected := directed_misses pad.layout
    ((avoids_cons _ _ _).mpr rfl) ((avoids_cons _ _ _).mpr rfl)
    ((avoids_cons _ _ _).mpr rfl)

/- The first letters of a clause and of the selection. -/
def beginsClause (c : Char) : Bool :=
  c == 'w' || c == 'o' || c == 's'

/- A text goes on with a clause or with the selection. -/
def BeginsClause (s : List Char) : Prop :=
  ∃ (gap : Gap) (c : Char) (cs : List Char),
    s = gap.chars ++ c :: cs ∧ beginsClause c = true

/-
  A class that has none of three letters has none that a
  clause begins with.
-/
theorem false_of_beginsClause
    {p : Char → Bool}
    (hFree : (p 'w' || p 'o' || p 's') = false)
    {c : Char}
    (hBegins : beginsClause c = true) :
    p c = false := by
  simp only [beginsClause, Bool.or_eq_true,
    Bool.or_eq_false_iff, beq_iff_eq] at hFree hBegins
  rcases hBegins with (rfl | rfl) | rfl
  · exact hFree.1.1
  · exact hFree.1.2
  · exact hFree.2

/- The next clause ends an expression too. -/
theorem BeginsClause.closes
    {s : List Char}
    (hBegins : BeginsClause s) :
    Closes s := by
  rcases hBegins with ⟨gap, c, cs, rfl, hBegins⟩
  have hLetter : isNameStart c = true := by
    simp only [beginsClause, Bool.or_eq_true,
      beq_iff_eq] at hBegins
    rcases hBegins with (rfl | rfl) | rfl <;> rfl
  have hOther : ∀ p : Char → Bool,
      (p 'w' || p 'o' || p 's') = false → Avoids p (c :: cs) := by
    intro p hFree
    exact (avoids_cons p c cs).mpr
      (false_of_beginsClause hFree hBegins)
  constructor
  · exact ends_gap gap hLetter 0 cs
  · exact directed_misses gap.layout (hOther _ rfl)
      (hOther _ rfl) (hOther _ rfl)

/- No further key comes behind the last one. -/
theorem BeginsClause.comma_misses
    {s : List Char}
    (hBegins : BeginsClause s) :
    comma.Misses s := by
  rcases hBegins with ⟨gap, c, cs, rfl, hBegins⟩
  apply Grammar.comma_misses gap.layout
  · exact false_of_beginsClause rfl hBegins
  · rintro rfl
    exact absurd hBegins (by decide)

/- Both directions are read back, behind a gap. -/
theorem directed_ascending
    (gap : Gap)
    {rest : List Char}
    (hRest : Avoids isNameChar rest) :
    directed (gap.chars ++ ("ascending".toList ++ rest)) =
      .ok .ascending rest := by
  have hFirst : Avoids Text.isLayout
      ("ascending".toList ++ rest) :=
    (avoids_cons _ 'a' _).mpr rfl
  unfold directed
  rw [bind_of_ok (layout1_gap gap hFirst)]
  apply orElse_of_ok
  exact bind_of_ok (keyword_append "ascending" hRest)

theorem directed_descending
    (gap : Gap)
    {rest : List Char}
    (hRest : Avoids isNameChar rest) :
    directed (gap.chars ++ ("descending".toList ++ rest)) =
      .ok .descending rest := by
  have hFirst : ∀ p : Char → Bool, p 'd' = false →
      Avoids p ("descending".toList ++ rest) := by
    intro p hFree
    exact (avoids_cons p 'd' _).mpr hFree
  have hMiss : (keyword "ascending").Misses
      ("descending".toList ++ rest) :=
    keyword_misses_of_head rfl (hFirst _ rfl)
  unfold directed
  rw [bind_of_ok (layout1_gap gap (hFirst _ rfl)),
    orElse_of_misses (hMiss.bind _)]
  exact bind_of_ok (keyword_append "descending" hRest)

/- A key with a direction. -/
theorem ordering_of_directed
    {key : Node}
    {direction : Direction}
    {s middle rest : List Char}
    (hKey : expression s = .ok key middle)
    (hDirection : directed middle = .ok direction rest) :
    ordering s = .ok (key, direction) rest := by
  unfold ordering
  rw [bind_of_ok hKey]
  exact bind_of_ok (optional_of_ok hDirection)

/- A key without one is ascending. -/
theorem ordering_of_misses
    {key : Node}
    {s rest : List Char}
    (hKey : expression s = .ok key rest)
    (hMiss : directed.Misses rest) :
    ordering s = .ok (key, .ascending) rest := by
  unfold ordering
  rw [bind_of_ok hKey]
  exact bind_of_ok (optional_of_misses hMiss)

/- A key is read back with its direction. -/
theorem ordering_printKey
    (style : Style)
    (clause key : Nat)
    {o : Node × Direction}
    {rest : List Char}
    (hCanonical : o.1.isCanonical Value.isPlain = true)
    (hCloses : Closes rest) :
    ordering (Clause.printKey style clause key o ++ rest) =
      .ok o rest := by
  rcases o with ⟨n, direction⟩
  have hKey : ∀ {text : List Char}, Ends 0 text →
      expression (n.bare style.pad ++ text) = .ok n text :=
    fun hEnds => expression_bare style.pad hCanonical hEnds
  simp only [Clause.printKey, List.append_assoc]
  cases direction with
  | ascending =>
      by_cases hWritten : style.directions = true
      · rw [Direction.print, if_pos hWritten,
          List.append_assoc]
        exact ordering_of_directed (hKey (ends_gap _ rfl 0 _))
          (directed_ascending _ hCloses.ends.name)
      · rw [Direction.print, if_neg hWritten,
          List.nil_append]
        exact ordering_of_misses (hKey hCloses.ends)
          hCloses.undirected
  | descending =>
      simp only [Direction.print, List.append_assoc]
      exact ordering_of_directed (hKey (ends_gap _ rfl 0 _))
        (directed_descending _ hCloses.ends.name)

/- After a key there is a comma, or what ends the order. -/
theorem closes_printKeys
    (style : Style)
    (clause key : Nat)
    (os : List (Node × Direction))
    {rest : List Char}
    (hCloses : Closes rest) :
    Closes (Clause.printKeys style clause key os ++ rest) := by
  cases os with
  | nil => exact hCloses
  | cons o os =>
      simp only [Clause.printKeys, List.append_assoc,
        List.cons_append]
      exact closes_comma style.pad _

/- Further keys are read back, each behind its comma. -/
theorem sepTail_printKeys
    (style : Style)
    (clause key : Nat)
    {os : List (Node × Direction)}
    {rest : List Char}
    (hCanonical :
      ∀ o ∈ os, o.1.isCanonical Value.isPlain = true)
    (hBegins : BeginsClause rest) :
    sepTail ordering comma
        (Clause.printKeys style clause key os ++ rest) =
      .ok os rest := by
  induction os generalizing key with
  | nil => exact sepTail_of_misses hBegins.comma_misses
  | cons o os ih =>
      have hOwn := hCanonical o List.mem_cons_self
      have hOthers : ∀ o ∈ os,
          o.1.isCanonical Value.isPlain = true :=
        fun o hMem => hCanonical o (List.mem_cons_of_mem _ hMem)
      have hKey := ordering_printKey style clause key hOwn
        (closes_printKeys style clause (key + 1) os
          hBegins.closes)
      have hFirst : Avoids Text.isLayout
          (Clause.printKey style clause key o ++
            (Clause.printKeys style clause (key + 1) os
              ++ rest)) := by
        rw [Clause.printKey, List.append_assoc]
        exact ((Node.leads_bare style.pad o.1
          hOwn).append _).avoids_layout
      simp only [Clause.printKeys, List.append_assoc,
        List.cons_append]
      rw [sepTail_of_ok (comma_append style.pad hFirst) hKey,
        ih (key + 1) hOthers]
      · rfl
      · simp only [List.length_append, List.length_cons]
        omega

------------------------------------------------------------
-- Clauses
------------------------------------------------------------

/-
  A printed clause and what follows it, taken apart as it is
  read.
-/
theorem print_filter
    (style : Style)
    (number : Nat)
    (predicate : Node)
    (rest : List Char) :
    (Clause.filter predicate).print style number ++ rest =
      "where".toList
        ++ ((style.gap (.afterKeyword number)).chars
          ++ (predicate.bare style.pad ++ rest)) := by
  change "where".toList ++ _ ++ _ ++ rest = _
  rw [List.append_assoc, List.append_assoc]

theorem print_order
    (style : Style)
    (number : Nat)
    (first : Node × Direction)
    (others : List (Node × Direction))
    (rest : List Char) :
    (Clause.order (first :: others)).print style number
        ++ rest =
      "orderby".toList
        ++ ((style.gap (.afterKeyword number)).chars
          ++ (Clause.printKey style number 0 first
            ++ (Clause.printKeys style number 1 others
              ++ rest))) := by
  change "orderby".toList ++ _ ++ _ ++ _ ++ rest = _
  rw [List.append_assoc, List.append_assoc, List.append_assoc]

/- A keyword, a gap, and a predicate. -/
theorem clause_filter
    {predicate : Node}
    {s rest : List Char}
    (gap : Gap)
    (hFirst : Avoids Text.isLayout s)
    (hRead : expression s = .ok predicate rest) :
    clause ("where".toList ++ (gap.chars ++ s)) =
      .ok (.filter predicate) rest := by
  apply orElse_of_ok
  rw [bind_of_ok (keyword_gap "where" gap s),
    bind_of_ok (layout1_gap gap hFirst), bind_of_ok hRead,
    pure_apply]

/- The other keyword, a gap, and keys. -/
theorem clause_order
    {keys : List (Node × Direction)}
    {s rest : List Char}
    (gap : Gap)
    (hFirst : Avoids Text.isLayout s)
    (hRead : sepBy1 ordering comma s = .ok keys rest) :
    clause ("orderby".toList ++ (gap.chars ++ s)) =
      .ok (.order keys) rest := by
  have hMiss : (keyword "where").Misses
      ("orderby".toList ++ (gap.chars ++ s)) :=
    keyword_misses_of_head rfl ((avoids_cons _ 'o' _).mpr rfl)
  unfold clause
  rw [orElse_of_misses (hMiss.bind _),
    bind_of_ok (keyword_gap "orderby" gap s),
    bind_of_ok (layout1_gap gap hFirst)]
  exact bind_of_ok hRead

/- A clause is read back where another clause follows. -/
theorem clause_print
    (style : Style)
    (number : Nat)
    {c : Clause}
    {rest : List Char}
    (hCanonical : c.isCanonical Value.isPlain = true)
    (hBegins : BeginsClause rest) :
    clause (c.print style number ++ rest) = .ok c rest := by
  cases c with
  | filter predicate =>
      have hLeads := (Node.leads_bare style.pad predicate
        hCanonical).append rest
      rw [print_filter]
      exact clause_filter _ hLeads.avoids_layout
        (expression_bare style.pad hCanonical
          hBegins.closes.ends)
  | order keys =>
      simp only [Clause.isCanonical, Bool.and_eq_true,
        List.all_eq_true] at hCanonical
      cases keys with
      | nil => simp at hCanonical
      | cons first others =>
          have hFirst := hCanonical.2 first List.mem_cons_self
          have hOthers : ∀ o ∈ others,
              o.1.isCanonical Value.isPlain = true :=
            fun o hMem =>
              hCanonical.2 o (List.mem_cons_of_mem _ hMem)
          have hKey := ordering_printKey style number 0 hFirst
            (closes_printKeys style number 1 others
              hBegins.closes)
          have hTail := sepTail_printKeys style number 1 hOthers
            hBegins
          rw [print_order]
          apply clause_order
          · rw [Clause.printKey, List.append_assoc]
            exact ((Node.leads_bare style.pad first.1
              hFirst).append _).avoids_layout
          · rw [sepBy1_of_ok hKey, hTail]
            rfl

/- A clause begins with a word of its own. -/
theorem print_head
    (style : Style)
    (number : Nat)
    (c : Clause) :
    ∃ first cs, c.print style number = first :: cs ∧
      beginsClause first = true := by
  cases c with
  | filter predicate => exact ⟨'w', _, rfl, rfl⟩
  | order keys =>
      cases keys with
      | nil => exact ⟨'o', _, rfl, rfl⟩
      | cons o os => exact ⟨'o', _, rfl, rfl⟩

/- Behind any clauses there is a clause or the end. -/
theorem beginsClause_printAll
    (style : Style)
    (number : Nat)
    (cs : List Clause)
    {rest : List Char}
    (hBegins : BeginsClause rest) :
    BeginsClause (Clause.printAll style number cs ++ rest) := by
  cases cs with
  | nil => exact hBegins
  | cons c cs =>
      rcases print_head style number c with
        ⟨first, others, hChars, hFirst⟩
      refine ⟨style.gap (.beforeClause number), first,
        others ++ (Clause.printAll style (number + 1) cs
          ++ rest), ?_, hFirst⟩
      simp only [Clause.printAll, hChars, List.append_assoc,
        List.cons_append]

theorem beginsClause_select
    (gap : Gap)
    (s : List Char) :
    BeginsClause (gap.chars ++ ("select".toList ++ s)) :=
  ⟨gap, 's', _, rfl, rfl⟩

/- The selection is no clause. -/
theorem clause_misses_select
    (s : List Char) :
    clause.Misses ("select".toList ++ s) := by
  have hWhere : (keyword "where").Misses ("select".toList ++ s) :=
    keyword_misses_of_head rfl ((avoids_cons _ 's' _).mpr rfl)
  have hOrder :
      (keyword "orderby").Misses ("select".toList ++ s) :=
    keyword_misses_of_head rfl ((avoids_cons _ 's' _).mpr rfl)
  exact (hWhere.bind _).orElse (hOrder.bind _)

/- All clauses are read back, up to the selection. -/
theorem many_printAll
    (style : Style)
    (number : Nat)
    {cs : List Clause}
    (gap : Gap)
    (s : List Char)
    (hCanonical :
      ∀ c ∈ cs, c.isCanonical Value.isPlain = true) :
    many (do layout1; clause)
        (Clause.printAll style number cs
          ++ (gap.chars ++ ("select".toList ++ s))) =
      .ok cs (gap.chars ++ ("select".toList ++ s)) := by
  have hBegins := beginsClause_select gap s
  induction cs generalizing number with
  | nil =>
      apply many_of_misses
      apply misses_bind_of_ok (layout1_gap gap _)
        (clause_misses_select s)
      exact (avoids_cons _ 's' _).mpr rfl
  | cons c cs ih =>
      have hOwn := hCanonical c List.mem_cons_self
      have hOthers : ∀ c ∈ cs,
          c.isCanonical Value.isPlain = true :=
        fun c hMem => hCanonical c (List.mem_cons_of_mem _ hMem)
      have hClause := clause_print style number hOwn
        (beginsClause_printAll style (number + 1) cs hBegins)
      have hFirst : Avoids Text.isLayout
          (c.print style number ++
            (Clause.printAll style (number + 1) cs
              ++ (gap.chars ++ ("select".toList ++ s)))) := by
        rcases print_head style number c with
          ⟨first, others, hChars, hLetter⟩
        rw [hChars]
        exact (avoids_cons _ first _).mpr
          (false_of_beginsClause rfl hLetter)
      have hNonempty := List.length_pos_iff.mpr
        (style.gap (.beforeClause number)).nonempty
      simp only [Clause.printAll, List.append_assoc]
      rw [many_of_ok ((bind_of_ok (layout1_gap _ hFirst)).trans
        hClause), ih (number + 1) hOthers]
      · rfl
      · simp only [List.length_append]
        omega

------------------------------------------------------------
-- Comprehensions
------------------------------------------------------------

/- A query is read back up to its selection. -/
theorem comprehension_printBody
    (style : Style)
    {q : Comprehension}
    {rest : List Char}
    (hCanonical : q.isCanonical Value.isPlain = true)
    (hRest : Avoids isNameChar rest) :
    comprehension (q.printBody style ++ rest) =
      .ok { q with operators := [] } rest := by
  simp only [Comprehension.isCanonical, Bool.and_eq_true,
    List.all_eq_true] at hCanonical
  rcases hCanonical with
    ⟨⟨⟨⟨hVariable, hEntity⟩, hClauses⟩, hSelected⟩, _⟩
  have hAfterEntity : Avoids isNameChar
      (Clause.printAll style 0 q.clauses
        ++ ((style.gap .beforeSelect).chars
          ++ ("select".toList
            ++ ((style.gap .afterSelect).chars
              ++ (q.selected.toList ++ rest))))) :=
    (beginsClause_printAll style 0 q.clauses
      (beginsClause_select _ _)).closes.ends.name
  have hIn : ∀ s, Avoids Text.isLayout ("in".toList ++ s) :=
    fun s => (avoids_cons _ 'i' _).mpr rfl
  have hSelect :
      ∀ s, Avoids Text.isLayout ("select".toList ++ s) :=
    fun s => (avoids_cons _ 's' _).mpr rfl
  unfold Comprehension.printBody comprehension
  simp only [List.append_assoc]
  rw [bind_of_ok (keyword_gap "from" _ _),
    bind_of_ok (layout1_gap _ (avoids_layout_name hVariable _)),
    bind_of_ok (name_append hVariable (avoids_name_gap _ _)),
    bind_of_ok (layout1_gap _ (hIn _)),
    bind_of_ok (keyword_gap "in" _ _),
    bind_of_ok (layout1_gap _ (avoids_layout_name hEntity _)),
    bind_of_ok (name_append hEntity hAfterEntity),
    bind_of_ok (many_printAll style 0 _ _ hClauses),
    bind_of_ok (layout1_gap _ (hSelect _)),
    bind_of_ok (keyword_gap "select" _ _),
    bind_of_ok (layout1_gap _ (avoids_layout_name hSelected _)),
    bind_of_ok (name_append hSelected hRest)]
  rfl

------------------------------------------------------------
-- Calls behind the Selection
------------------------------------------------------------

/- Expressions in brackets are read with no bound on them. -/
theorem readsInside_expression
    (pad : Pad)
    (bound : Nat) :
    ReadsInside pad expression bound where
  reads := by
    intro n rest hCanonical _ hEnds
    exact expression_bare pad hCanonical hEnds
  misses := by
    intro c rest hClosing
    have hInside := readsInside_nested pad
      ((c :: rest).length + 1)
    rcases hInside.misses c rest hClosing with ⟨fault, hMiss⟩
    exact ⟨fault, hMiss⟩

/-
  An operator is read back with its arguments, with any
  padding in between.
-/
theorem operatorCall_print
    (pad : Pad)
    {op : OperatorCall}
    (hName : isName op.method = true)
    (hArgs : Node.areCanonical Value.isPlain op.args = true)
    (rest : List Char) :
    operatorCall ('.' :: (pad.chars ++ (op.method.toList
        ++ (pad.chars ++ (Node.bracket pad '(' ')'
          (Node.items pad op.args) ++ rest))))) =
      .ok op rest := by
  have hRead : arguments expression
      (Node.bracket pad '(' ')' (Node.items pad op.args)
        ++ rest) = .ok op.args rest :=
    enclosed_items (readsInside_expression pad _) '(' (.inl rfl)
      rest hArgs (Nat.lt_succ_self _)
  have hParen : ∀ p : Char → Bool, p '(' = false →
      Avoids p (Node.bracket pad '(' ')' (Node.items pad op.args)
        ++ rest) :=
    fun p hFree => (avoids_cons p '(' _).mpr hFree
  have hStop : Avoids isNameChar (pad.chars
      ++ (Node.bracket pad '(' ')' (Node.items pad op.args)
        ++ rest)) :=
    avoids_run rfl pad.layout fun _ => hParen _ rfl
  unfold operatorCall
  rw [bind_of_ok (symbol_cons '.' _),
    bind_of_ok (layout_run pad.layout
      (avoids_layout_name hName _)),
    bind_of_ok (name_append hName hStop),
    bind_of_ok (layout_run pad.layout (hParen _ rfl)),
    bind_of_ok hRead]
  rfl

/- All calls are read back, up to the layout at the end. -/
theorem many_operatorCall_run
    (pad : Pad)
    {ops : List OperatorCall}
    {run : List Char}
    (hCanonical : ∀ op ∈ ops, isName op.method = true ∧
      Node.areCanonical Value.isPlain op.args = true)
    (hRun : ∀ c ∈ run, Text.isLayout c = true) :
    many (do layout; operatorCall)
        (OperatorCall.printAll pad ops ++ run) =
      .ok ops run := by
  induction ops with
  | nil =>
      have hLayout : layout run = .ok () [] := by
        simpa using layout_run hRun (avoids_nil _)
      apply many_of_misses
      apply misses_bind_of_ok hLayout
      exact (symbol_misses (avoids_nil _)).bind _
  | cons op ops ih =>
      rcases hCanonical op List.mem_cons_self with
        ⟨hName, hArgs⟩
      have hOthers := ih fun op hMem =>
        hCanonical op (List.mem_cons_of_mem _ hMem)
      have hCall := operatorCall_print pad hName hArgs
        (OperatorCall.printAll pad ops ++ run)
      have hDot : ∀ s, layout (pad.chars ++ '.' :: s) =
          .ok () ('.' :: s) :=
        fun s => layout_run pad.layout
          ((avoids_cons _ '.' s).mpr rfl)
      simp only [OperatorCall.printAll, List.append_assoc,
        List.cons_append]
      rw [many_of_ok ((bind_of_ok (hDot _)).trans hCall),
        hOthers]
      · rfl
      · simp only [List.length_append, List.length_cons]
        omega

/-
  So are all operators. Padding at the end is not taken, since
  no operator follows it.
-/
theorem many_operatorCall
    (pad : Pad)
    {ops : List OperatorCall}
    (hCanonical : ∀ op ∈ ops, isName op.method = true ∧
      Node.areCanonical Value.isPlain op.args = true) :
    many (do layout; operatorCall)
        (OperatorCall.printAll pad ops ++ pad.chars) =
      .ok ops pad.chars :=
  many_operatorCall_run pad hCanonical pad.layout

------------------------------------------------------------
-- Whole Queries
------------------------------------------------------------

/- Calls do not go on with the name before them. -/
theorem avoids_name_printAll_run
    (pad : Pad)
    (ops : List OperatorCall)
    {run : List Char}
    (hRun : ∀ c ∈ run, Text.isLayout c = true) :
    Avoids isNameChar (OperatorCall.printAll pad ops ++ run) := by
  cases ops with
  | nil =>
      have hPad := @avoids_run isNameChar run [] rfl
        hRun fun _ => avoids_nil isNameChar
      simpa [OperatorCall.printAll] using hPad
  | cons op ops =>
      simp only [OperatorCall.printAll, List.append_assoc,
        List.cons_append]
      exact avoids_run rfl pad.layout
        fun _ => (avoids_cons _ '.' _).mpr rfl

/- Operators do not go on with the name before them. -/
theorem avoids_name_printAll
    (pad : Pad)
    (ops : List OperatorCall) :
    Avoids isNameChar
      (OperatorCall.printAll pad ops ++ pad.chars) :=
  avoids_name_printAll_run pad ops pad.layout

/- A query begins with the first letter of its keyword. -/
theorem printBody_head
    (style : Style)
    (q : Comprehension)
    {p : Char → Bool}
    (hFree : p 'f' = false)
    (s : List Char) :
    Avoids p (q.printBody style ++ s) :=
  (avoids_cons p 'f' _).mpr hFree

/- The query itself is read back, with parentheses or not. -/
theorem comprehension_print
    (style : Style)
    {q : Comprehension}
    {rest : List Char}
    (hCanonical : q.isCanonical Value.isPlain = true)
    (hRest : Avoids isNameChar rest) :
    (enclosed '(' ')' comprehension <|> comprehension)
        ((if style.parentheses then
            Node.bracket style.pad '(' ')' (q.printBody style)
          else q.printBody style) ++ rest) =
      .ok { q with operators := [] } rest := by
  split
  · apply orElse_of_ok
    apply enclosed_bracket rfl (printBody_head style q rfl _)
    apply comprehension_printBody style hCanonical
    exact avoids_run rfl style.pad.layout
      fun _ => (avoids_cons _ ')' _).mpr rfl
  · rw [orElse_of_misses
      (enclosed_misses (printBody_head style q rfl _) ')' _)]
    exact comprehension_printBody style hCanonical hRest

/-
  Every query is read back from its spelling, whatever its
  layout, and nothing of the text is left over.
-/
theorem fullQuery_print
    (style : Style)
    (q : Comprehension)
    (hCanonical : q.isCanonical Value.isPlain = true) :
    fullQuery (q.print style) = .ok q [] := by
  have hOperators : ∀ op ∈ q.operators,
      isName op.method = true ∧
        Node.areCanonical Value.isPlain op.args = true := by
    have hParts := hCanonical
    simp only [Comprehension.isCanonical, Bool.and_eq_true,
      List.all_eq_true] at hParts
    exact hParts.2
  have hQuery := comprehension_print style hCanonical
    (avoids_name_printAll style.pad q.operators)
  have hCalls := many_operatorCall style.pad hOperators
  have hEnd : layout style.pad.chars = .ok () [] := by
    simpa using layout_run style.pad.layout (avoids_nil _)
  have hStart : Avoids Text.isLayout
      ((if style.parentheses then
          Node.bracket style.pad '(' ')' (q.printBody style)
        else q.printBody style)
        ++ (OperatorCall.printAll style.pad q.operators
          ++ style.pad.chars)) := by
    split
    · exact (avoids_cons _ '(' _).mpr rfl
    · exact printBody_head style q rfl _
  unfold Comprehension.print fullQuery
  simp only [List.append_assoc]
  rw [bind_of_ok (layout_run style.pad.layout hStart),
    bind_of_ok hQuery, bind_of_ok hCalls, bind_of_ok hEnd]
  rfl

/- Each clause on a line of its own, blanks elsewhere. -/
def spreadStyle : Style where
  pad := ⟨[' '], List.all_eq_true.mp rfl⟩
  gap := fun
    | .beforeClause _ | .beforeSelect =>
        ⟨⟨['\n', '\t'], List.all_eq_true.mp rfl⟩, by simp⟩
    | _ => ⟨⟨[' ', ' '], List.all_eq_true.mp rfl⟩, by simp⟩
  parentheses := true
  directions := false

/-
  A query whose names are words of the grammar and whose
  operands need parentheses on the left and on the right.
-/
def nestedQuery : Comprehension where
  variableName := "in"
  entity := "where"
  clauses := [
    .filter (.binary .andAlso
      (.not (.binary .orElse (.ident "true1")
        (.binary .notEqual
          (.field (.ident "datetime") "x")
          (.literal (.string "a\"b")))))
      (.binary .lessThan
        (.binary .subtract (.literal (.int 1))
          (.binary .subtract
            (.negate (.literal (.span ⟨5000, by decide⟩)))
            (.index (.ident "p")
              (.array [.literal (.bool true)]))))
        (.call (.ident "q") "f" [.ident "r"]))),
    .order [(.ident "select", .descending),
      (.ident "ascending", .ascending)]]
  selected := "from"
  operators := [
    ⟨"Take", [.literal (.uint 9223372036854775808)]⟩,
    ⟨"Count", []⟩]

example :
    String.ofList (nestedQuery.print spreadStyle) =
      " ( from  in  in  where" ++
      "\n\twhere  ! ( true1 || datetime.x != \"a\\\"b\" )" ++
      " && 1 - ( - 5us - p[ [ true ] ] ) < q.f( r )" ++
      "\n\torderby  select  descending , ascending" ++
      "\n\tselect  from )" ++
      " . Take ( 9223372036854775808 ) . Count (  ) " := by
  decide +kernel

/- Parentheses, gaps of every kind and operators. -/
theorem fullQuery_print_nestedQuery :
    nestedQuery.isCanonical Value.isPlain = true ∧
      fullQuery (nestedQuery.print spreadStyle) =
        .ok nestedQuery [] :=
  ⟨by decide, fullQuery_print spreadStyle nestedQuery
    (by decide)⟩

end Grammar

end TypedFlux
