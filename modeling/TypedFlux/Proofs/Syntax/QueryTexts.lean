import TypedFlux.Proofs.Number.Integers
import TypedFlux.Proofs.Syntax.RoundTrip
import TypedFlux.Proofs.Syntax.Substitution

/-
  Whole texts of queries.

  A text is trimmed before it is read, of more than layout.
  What is left of the spelling of a query begins and ends with
  characters of its own, and so the query is read back.

  Key theorems include:
    * `Comprehension.trimChars_print`
    * `QueryReader.parse_print`
    * `QueryReader.read_print`
    * `Comprehension.isCanonical_replace`
-/

------------------------------------------------------------
-- Blanks
------------------------------------------------------------

namespace TypedFlux

open Lexeme

theorem Text.isBlank_of_isLayout
    {c : Char}
    (hLayout : isLayout c = true) :
    isBlank c = true := by
  have hOther : (!isBlank c) = false :=
    false_of_isLayout (p := fun d => !isBlank d) rfl hLayout
  simpa using hOther

/- A text ends with a character that is not blank. -/
def Text.EndsFirm (s : List Char) : Prop :=
  ∃ front c, s = front ++ [c] ∧ isBlank c = false

/- The end of a text is that of its last part. -/
theorem Text.EndsFirm.append
    {t : List Char}
    (hFirm : EndsFirm t)
    (s : List Char) :
    EndsFirm (s ++ t) := by
  rcases hFirm with ⟨front, c, rfl, hFirm⟩
  exact ⟨s ++ front, c, by rw [List.append_assoc], hFirm⟩

/- A firm end is not trimmed. -/
theorem Text.EndsFirm.avoids
    {s : List Char}
    (hFirm : EndsFirm s) :
    s ≠ [] ∧ Avoids isBlank s.reverse := by
  rcases hFirm with ⟨front, c, rfl, hFirm⟩
  refine ⟨by simp, ?_⟩
  rw [List.reverse_append]
  exact (avoids_cons _ c _).mpr hFirm

/- Names and brackets end firmly. -/
theorem Text.endsFirm_name
    {x : String}
    (hName : isName x = true) :
    EndsFirm x.toList := by
  rcases toList_of_isName hName with ⟨first, others, hChars, _⟩
  have hNonempty : x.toList ≠ [] := by simp [hChars]
  refine ⟨x.toList.dropLast, x.toList.getLast hNonempty,
    (List.dropLast_concat_getLast hNonempty).symm, ?_⟩
  exact isBlank_of_isNameChar
    (isNameChar_of_isName hName _ (List.getLast_mem hNonempty))

/- Nothing is trimmed off a name. -/
theorem Text.trimChars_name
    {x : String}
    (hName : isName x = true) :
    trimChars x.toList = x.toList := by
  have hFirst : Avoids isBlank x.toList := by
    intro c hHead
    exact isBlank_of_isNameChar
      (isNameChar_of_isName hName c (List.mem_of_mem_head? hHead))
  have hEmpty : ∀ c ∈ ([] : List Char), isBlank c = true :=
    fun c hMem => absurd hMem List.not_mem_nil
  rcases (endsFirm_name hName).avoids with ⟨hNonempty, hLast⟩
  simpa using
    trimChars_blanks hEmpty hEmpty hNonempty hFirst hLast

theorem Text.endsFirm_bracket
    (pad : Pad)
    (opening : Char)
    (text : List Char) :
    EndsFirm (Node.bracket pad opening ')' text) :=
  ⟨opening :: (pad.chars ++ text ++ pad.chars), ')', rfl, rfl⟩

end TypedFlux

------------------------------------------------------------
-- Trimmed Spellings
------------------------------------------------------------

namespace TypedFlux

open Lexeme Text

/- Calls end with a parenthesis. -/
theorem OperatorCall.endsFirm_printAll
    (pad : Pad)
    {ops : List OperatorCall}
    (hNonempty : ops ≠ []) :
    EndsFirm (printAll pad ops) := by
  induction ops with
  | nil => exact absurd rfl hNonempty
  | cons op ops ih =>
      cases ops with
      | nil =>
          simp only [printAll, List.append_nil]
          rw [← List.cons_append, ← List.append_assoc]
          exact (endsFirm_bracket pad '(' _).append _
      | cons next others =>
          rw [printAll]
          exact (ih (List.cons_ne_nil _ _)).append _

namespace Comprehension

/- The spelling of a query without the layout around it. -/
def printInner
    (style : Style)
    (q : Comprehension) : List Char :=
  (if style.parentheses then
      Node.bracket style.pad '(' ')' (q.printBody style)
    else q.printBody style)
    ++ OperatorCall.printAll style.pad q.operators

/- The padding of a style is also around the whole text. -/
theorem print_eq_printInner
    (style : Style)
    (q : Comprehension) :
    q.print style =
      style.pad.chars
        ++ (q.printInner style ++ style.pad.chars) := by
  simp only [print, printInner, List.append_assoc]

theorem avoids_printInner
    (style : Style)
    (q : Comprehension)
    {p : Char → Bool}
    (hParen : p '(' = false)
    (hLetter : p 'f' = false)
    (s : List Char) :
    Avoids p (q.printInner style ++ s) := by
  unfold printInner
  split
  · exact (avoids_cons p '(' _).mpr hParen
  · rw [List.append_assoc]
    exact Grammar.printBody_head style q hLetter _

/-
  Without it, a text ends with the selected name or a
  parenthesis.
-/
theorem endsFirm_printInner
    (style : Style)
    {q : Comprehension}
    (hSelected : isName q.selected = true) :
    EndsFirm (q.printInner style) := by
  by_cases hCalls : q.operators = []
  · unfold printInner
    rw [hCalls, OperatorCall.printAll, List.append_nil]
    split
    · exact endsFirm_bracket style.pad '(' _
    · exact (endsFirm_name hSelected).append _
  · exact (OperatorCall.endsFirm_printAll style.pad
      hCalls).append _

/- Trimming takes off the layout around a query. -/
theorem trimChars_print
    (style : Style)
    {q : Comprehension}
    (hSelected : isName q.selected = true) :
    trimChars (q.print style) = q.printInner style := by
  have hPad : ∀ c ∈ style.pad.chars, isBlank c = true :=
    fun c hMem => isBlank_of_isLayout (style.pad.layout c hMem)
  have hFirst := q.avoids_printInner style
    (p := isBlank) rfl rfl []
  rw [List.append_nil] at hFirst
  rcases (endsFirm_printInner style hSelected).avoids with
    ⟨hNonempty, hLast⟩
  rw [print_eq_printInner]
  exact trimChars_blanks hPad hPad hNonempty hFirst hLast

end Comprehension

end TypedFlux

------------------------------------------------------------
-- Texts Read Back
------------------------------------------------------------

namespace TypedFlux

open Lexeme Reader

/- Any layout may stand around a query. -/
theorem Grammar.fullQuery_run
    (style : Style)
    {q : Comprehension}
    (hCanonical : q.isCanonical Value.isPlain = true)
    {before after : List Char}
    (hBefore : ∀ c ∈ before, Text.isLayout c = true)
    (hAfter : ∀ c ∈ after, Text.isLayout c = true) :
    fullQuery (before ++ (q.printInner style ++ after)) =
      .ok q [] := by
  have hOperators : ∀ op ∈ q.operators,
      isName op.method = true ∧
        Node.areCanonical Value.isPlain op.args = true := by
    have hParts := hCanonical
    simp only [Comprehension.isCanonical, Bool.and_eq_true,
      List.all_eq_true] at hParts
    exact hParts.2
  have hStart := layout_run hBefore
    (q.avoids_printInner style (p := Text.isLayout) rfl rfl
      after)
  have hQuery := comprehension_print style hCanonical
    (avoids_name_printAll_run style.pad q.operators hAfter)
  have hCalls := many_operatorCall_run style.pad hOperators
    hAfter
  have hEnd : layout after = .ok () [] := by
    simpa using layout_run hAfter (avoids_nil _)
  unfold fullQuery
  rw [bind_of_ok hStart]
  unfold Comprehension.printInner
  rw [List.append_assoc, bind_of_ok hQuery, bind_of_ok hCalls,
    bind_of_ok hEnd]
  rfl

/- No layout is needed around a query. -/
theorem Grammar.fullQuery_printInner
    (style : Style)
    {q : Comprehension}
    (hCanonical : q.isCanonical Value.isPlain = true) :
    fullQuery (q.printInner style) = .ok q [] := by
  have hEmpty : ∀ c ∈ ([] : List Char),
      Text.isLayout c = true :=
    fun c hMem => absurd hMem List.not_mem_nil
  simpa using fullQuery_run style hCanonical hEmpty hEmpty

namespace QueryReader

/- A query is read back from the text of its spelling. -/
theorem parse_print
    (style : Style)
    {q : Comprehension}
    (hCanonical : q.isCanonical Value.isPlain = true) :
    parse (String.ofList (q.print style)) = .ok q := by
  have hSelected : isName q.selected = true := by
    simp only [Comprehension.isCanonical,
      Bool.and_eq_true] at hCanonical
    exact hCanonical.1.2
  unfold parse
  rw [String.toList_ofList,
    Comprehension.trimChars_print style hSelected,
    Grammar.fullQuery_printInner style hCanonical]
  rfl

/- A printed comprehension is read back and resolved. -/
theorem read_print
    (reader : QueryReader)
    (style : Style)
    {q : Comprehension}
    (hCanonical : q.isCanonical Value.isPlain = true) :
    reader.read (String.ofList (q.print style)) =
      q.resolve reader.registry reader.bindings := by
  unfold read
  rw [parse_print style hCanonical]
  rfl

end QueryReader

end TypedFlux

------------------------------------------------------------
-- Spellings of Replaced Names
------------------------------------------------------------

namespace TypedFlux

variable {f : String → Node}
variable {accepts : Value → Bool}

/- What stands in the place of a name can be read like it. -/
def Node.Spelled
    (accepts : Value → Bool)
    (f : String → Node) : Prop :=
  ∀ x, (Node.ident x).isCanonical accepts = true →
    (f x).isCanonical accepts = true

theorem Node.areCanonical_replaceAll
    {ns : List Node}
    (hEach : ∀ n ∈ ns, n.isCanonical accepts = true →
      (n.replace f).isCanonical accepts = true)
    (hCanonical : areCanonical accepts ns = true) :
    areCanonical accepts (replaceAll f ns) = true := by
  induction ns with
  | nil => rfl
  | cons n rest ih =>
      simp only [areCanonical, replaceAll,
        Bool.and_eq_true] at hCanonical ⊢
      constructor
      · exact hEach n List.mem_cons_self hCanonical.1
      · exact ih (fun m hMem =>
          hEach m (List.mem_cons_of_mem n hMem)) hCanonical.2

/- An expression can still be read. -/
theorem Node.isCanonical_replace
    (hSpelled : Spelled accepts f)
    (n : Node)
    (hCanonical : n.isCanonical accepts = true) :
    (n.replace f).isCanonical accepts = true := by
  induction n with
  | literal v => exact hCanonical
  | ident x => exact hSpelled x hCanonical
  | field base member ih =>
      simp only [isCanonical, replace,
        Bool.and_eq_true] at hCanonical ⊢
      exact ⟨ih hCanonical.1, hCanonical.2⟩
  | index base key ihBase ihKey =>
      simp only [isCanonical, replace,
        Bool.and_eq_true] at hCanonical ⊢
      exact ⟨ihBase hCanonical.1, ihKey hCanonical.2⟩
  | call receiver method args ihReceiver ihArgs =>
      simp only [isCanonical, replace,
        Bool.and_eq_true] at hCanonical ⊢
      exact ⟨⟨ihReceiver hCanonical.1.1, hCanonical.1.2⟩,
        areCanonical_replaceAll ihArgs hCanonical.2⟩
  | binary op left right ihLeft ihRight =>
      simp only [isCanonical, replace,
        Bool.and_eq_true] at hCanonical ⊢
      exact ⟨⟨hCanonical.1.1, ihLeft hCanonical.1.2⟩,
        ihRight hCanonical.2⟩
  | not operand ih => exact ih hCanonical
  | negate operand ih => exact ih hCanonical
  | array items ih => exact areCanonical_replaceAll ih hCanonical

/-
  Replaced names leave a clause canonical if their values are
  spelled.
-/
theorem Clause.isCanonical_replace
    (hSpelled : Node.Spelled accepts f)
    (c : Clause)
    (hCanonical : c.isCanonical accepts = true) :
    (c.replace f).isCanonical accepts = true := by
  cases c with
  | filter predicate =>
      exact predicate.isCanonical_replace hSpelled hCanonical
  | order keys =>
      simp only [isCanonical, replace, Bool.and_eq_true,
        List.all_eq_true, List.isEmpty_map,
        List.forall_mem_map] at hCanonical ⊢
      refine ⟨hCanonical.1, fun key hMem => ?_⟩
      exact key.1.isCanonical_replace hSpelled
        (hCanonical.2 key hMem)

/- A query can still be read. -/
theorem Comprehension.isCanonical_replace
    (hSpelled : Node.Spelled accepts f)
    {c : Comprehension}
    (hCanonical : c.isCanonical accepts = true) :
    (c.replace f).isCanonical accepts = true := by
  simp only [isCanonical, replace, Bool.and_eq_true,
    List.all_eq_true, List.forall_mem_map] at hCanonical ⊢
  rcases hCanonical with ⟨⟨⟨hNames, hClauses⟩, hSelected⟩,
    hOperators⟩
  refine ⟨⟨⟨hNames, fun clause hMem => ?_⟩, hSelected⟩,
    fun call hMem => ?_⟩
  · exact clause.isCanonical_replace hSpelled
      (hClauses clause hMem)
  · rcases hOperators call hMem with ⟨hMethod, hArgs⟩
    exact ⟨hMethod, Node.areCanonical_replaceAll
      (fun n _ => n.isCanonical_replace hSpelled) hArgs⟩

end TypedFlux
