import TypedFlux.Proofs.Syntax.Expressions

/-
  How far readers get.

  A reader only takes from the front, so that what it leaves
  is a suffix of its text.  Layout, options and repetitions may
  take nothing; words, names, literals and everything that is
  built around one of them take a character at least.

  Key definitions include:
    * `Reader.Trims`
    * `Reader.Advances`

  Key theorems include:
    * `Reader.Trims.bind`, `Reader.Advances.bind`
    * `Reader.Trims.many`, `Reader.Trims.sepTail`
    * `Lexeme.advances_name`, `Lexeme.advances_number`
    * `Grammar.advances_readerAt`
    * `Grammar.advances_expression`
    * `Grammar.advances_fullQuery`
-/

------------------------------------------------------------
-- Suffixes Left Unread
------------------------------------------------------------

namespace TypedFlux

namespace Reader

variable {α β : Type}
variable {p q : Reader α} {next : α → Reader β}

/- What a reader leaves is a suffix of its text. -/
def Trims (p : Reader α) : Prop :=
  ∀ s value rest, p s = .ok value rest → rest <:+ s

/- What a reader leaves is a shorter suffix of its text. -/
def Advances (p : Reader α) : Prop :=
  ∀ s value rest, p s = .ok value rest →
    rest <:+ s ∧ rest.length < s.length

/- Taking something is more than not giving any back. -/
theorem Advances.trims
    (hAdvances : Advances p) :
    Trims p :=
  fun s value rest hRead => (hAdvances s value rest hRead).1

/- A reader that takes nothing gives nothing back either. -/
theorem trims_pure
    (value : α) :
    Trims (Pure.pure value) := by
  rintro s _ _ ⟨⟩
  exact List.suffix_refl s

/- A sequence gives nothing back if none of its readers does. -/
theorem Trims.bind
    (hFirst : Trims p)
    (hNext : ∀ value, Trims (next value)) :
    Trims (p >>= next) := by
  intro s result rest hRead
  rcases bind_eq_ok.mp hRead with
    ⟨value, between, hValue, hResult⟩
  exact (hNext value between result rest hResult).trans
    (hFirst s value between hValue)

/- A sequence advances by its first reader. -/
theorem Advances.bind
    (hFirst : Advances p)
    (hNext : ∀ value, Trims (next value)) :
    Advances (p >>= next) := by
  intro s result rest hRead
  rcases bind_eq_ok.mp hRead with
    ⟨value, between, hValue, hResult⟩
  rcases hFirst s value between hValue with ⟨hSuffix, hShorter⟩
  have hLast := hNext value between result rest hResult
  exact ⟨hLast.trans hSuffix,
    Nat.lt_of_le_of_lt hLast.length_le hShorter⟩

/- Changing the value changes nothing in what was taken. -/
theorem Advances.map
    (hAdvances : Advances p)
    (f : α → β) :
    Advances (p >>= fun value => Pure.pure (f value)) :=
  hAdvances.bind fun value => trims_pure (f value)

/- A sequence advances by what comes after its first reader. -/
theorem Trims.before
    (hFirst : Trims p)
    (hNext : ∀ value, Advances (next value)) :
    Advances (p >>= next) := by
  intro s result rest hRead
  rcases bind_eq_ok.mp hRead with
    ⟨value, between, hValue, hResult⟩
  have hSuffix := hFirst s value between hValue
  rcases hNext value between result rest hResult with
    ⟨hLast, hShorter⟩
  exact ⟨hLast.trans hSuffix,
    Nat.lt_of_lt_of_le hShorter hSuffix.length_le⟩

/- A choice takes something if both of its readers do. -/
theorem Advances.orElse
    (hFirst : Advances p)
    (hSecond : Advances q) :
    Advances (p <|> q) := by
  intro s value rest hRead
  rcases orElse_eq_ok.mp hRead with hRead | ⟨_, hRead⟩
  · exact hFirst s value rest hRead
  · exact hSecond s value rest hRead

/-
  An absent item takes nothing, so this is all that can be
  said.
-/
theorem Trims.optional
    (hTrims : Trims p) :
    Trims (Reader.optional p) := by
  intro s value? rest hRead
  rcases optional_eq_ok.mp hRead with
    ⟨value, _, hValue⟩ | ⟨_, _, rfl⟩
  · exact hTrims s value rest hValue
  · exact List.suffix_refl _

/- A conversion takes what its reader takes. -/
theorem Advances.convert
    (hAdvances : Advances p)
    (f : α → Option β) :
    Advances (Reader.convert p f) := by
  intro s result rest hRead
  rcases convert_eq_ok.mp hRead with ⟨value, hValue, _⟩
  exact hAdvances s value rest hValue

------------------------------------------------------------
-- Repetitions
------------------------------------------------------------

/- A list may be empty, but gives nothing back. -/
theorem Trims.many
    (hTrims : Trims p) :
    Trims (Reader.many p) := by
  intro s
  fun_induction Reader.many p s with
  | case1 s value rest hRead _ ih =>
      intro values last hMany
      rcases map_eq_ok.mp hMany with ⟨others, hOthers, _⟩
      exact (ih others last hOthers).trans
        (hTrims s value rest hRead)
  | case3 s =>
      rintro values last ⟨⟩
      exact List.suffix_refl s
  | case2 | case4 => rintro values last ⟨⟩

/- So may a list with separators. -/
theorem Trims.sepTail
    {separator : Reader Unit}
    (hItem : Trims p)
    (hSeparator : Trims separator) :
    Trims (Reader.sepTail p separator) := by
  intro s
  fun_induction Reader.sepTail p separator s with
  | case1 s _ between hBetween value rest hRead _ ih =>
      intro values last hTail
      rcases map_eq_ok.mp hTail with ⟨others, hOthers, _⟩
      exact ((ih others last hOthers).trans
        (hItem between value rest hRead)).trans
        (hSeparator s _ between hBetween)
  | case3 s | case5 s =>
      rintro values last ⟨⟩
      exact List.suffix_refl s
  | case2 | case4 | case6 => rintro values last ⟨⟩

/- The first item has to be there. -/
theorem Advances.sepBy1
    {separator : Reader Unit}
    (hItem : Advances p)
    (hSeparator : Trims separator) :
    Advances (Reader.sepBy1 p separator) := by
  have hTail := hItem.trims.sepTail hSeparator
  intro s values last hRead
  cases hFirst : p s with
  | ok value rest =>
      rw [sepBy1_of_ok hFirst] at hRead
      rcases map_eq_ok.mp hRead with ⟨others, hOthers, _⟩
      rcases hItem s value rest hFirst with ⟨hSuffix, hShorter⟩
      have hLast := hTail rest others last hOthers
      exact ⟨hLast.trans hSuffix,
        Nat.lt_of_le_of_lt hLast.length_le hShorter⟩
  | miss fault | cut fault =>
      rw [Reader.sepBy1, hFirst] at hRead
      cases hRead

/- There may be no item at all. -/
theorem Trims.sepBy
    {separator : Reader Unit}
    (hItem : Trims p)
    (hSeparator : Trims separator) :
    Trims (Reader.sepBy p separator) := by
  intro s values last hRead
  cases hFirst : p s with
  | ok value rest =>
      rw [sepBy_of_ok hFirst] at hRead
      rcases map_eq_ok.mp hRead with ⟨others, hOthers, _⟩
      exact (hItem.sepTail hSeparator rest others last
        hOthers).trans (hItem s value rest hFirst)
  | miss fault =>
      rw [sepBy_of_misses ⟨fault, hFirst⟩] at hRead
      cases hRead
      exact List.suffix_refl s
  | cut fault =>
      rw [Reader.sepBy, hFirst] at hRead
      cases hRead

end Reader

end TypedFlux

------------------------------------------------------------
-- Lexemes
------------------------------------------------------------

namespace TypedFlux

namespace Lexeme

open Reader

theorem advances_symbol
    (c : Char) :
    Advances (symbol c) := by
  intro s _ rest hRead
  cases s with
  | nil => cases hRead
  | cons d s =>
      rw [symbol] at hRead
      split at hRead
      · cases hRead
        exact ⟨List.suffix_cons d rest, Nat.lt_succ_self _⟩
      · cases hRead

/- A word of one character at least. -/
theorem advances_word
    {w : String}
    {first : Char}
    {others : List Char}
    (hWord : w.toList = first :: others) :
    Advances (word w) := by
  intro s _ rest hRead
  rw [word] at hRead
  split at hRead
  · next hFront =>
      cases hRead
      refine ⟨List.drop_suffix _ s, ?_⟩
      have hLength : w.length = others.length + 1 := by
        rw [← String.length_toList, hWord, List.length_cons]
      have hLe := (List.isPrefixOf_iff_prefix.mp
        hFront).length_le
      rw [hWord, List.length_cons] at hLe
      rw [List.length_drop]
      omega
  · cases hRead

/- Blanks may be absent. -/
theorem trims_layout : Trims layout := by
  rintro s _ _ ⟨⟩
  exact List.dropWhile_suffix _

/- At least one blank is taken. -/
theorem advances_layout1 : Advances layout1 := by
  intro s _ rest hRead
  cases s with
  | nil => cases hRead
  | cons c s =>
      rw [layout1] at hRead
      split at hRead
      · cases hRead
        have hSuffix : s.dropWhile Text.isLayout <:+ s :=
          List.dropWhile_suffix _
        exact ⟨hSuffix.trans (List.suffix_cons c s),
          Nat.lt_succ_of_le hSuffix.length_le⟩
      · cases hRead

/- The end of a name is looked at, not taken. -/
theorem trims_boundary : Trims boundary := by
  intro s _ rest hRead
  cases s with
  | nil =>
      cases hRead
      exact List.suffix_refl []
  | cons c s =>
      rw [boundary] at hRead
      split at hRead
      · cases hRead
      · cases hRead
        exact List.suffix_refl (c :: s)

/- A keyword has a first letter, so it takes something. -/
theorem advances_keyword
    {w : String}
    {first : Char}
    {others : List Char}
    (hWord : w.toList = first :: others) :
    Advances (keyword w) :=
  (advances_word hWord).bind fun _ => trims_boundary

theorem advances_name : Advances name := by
  intro s _ rest hRead
  cases s with
  | nil => cases hRead
  | cons c s =>
      rw [name] at hRead
      split at hRead
      · cases hRead
        have hSuffix : s.dropWhile isNameChar <:+ s :=
          List.dropWhile_suffix _
        exact ⟨hSuffix.trans (List.suffix_cons c s),
          Nat.lt_succ_of_le hSuffix.length_le⟩
      · cases hRead

/- A string ends with a quote of its own. -/
theorem stringBody_suffix
    {quote : Char}
    {s content rest : List Char}
    (hBody : stringBody quote s = some (content, rest)) :
    rest <:+ s := by
  fun_induction stringBody quote s generalizing content with
  | case1 | case3 => cases hBody
  | case2 c =>
      cases hBody
      exact List.suffix_cons c rest
  | case4 c _ _ e s ih =>
      rcases Option.map_eq_some_iff.mp hBody with
        ⟨⟨content, rest⟩, hRest, ⟨⟩⟩
      exact (ih hRest).trans ((List.suffix_cons e s).trans
        (List.suffix_cons c (e :: s)))
  | case5 c s _ _ ih =>
      rcases Option.map_eq_some_iff.mp hBody with
        ⟨⟨content, rest⟩, hRest, ⟨⟩⟩
      exact (ih hRest).trans (List.suffix_cons c s)

/- The two quotes are taken in any case. -/
theorem advances_stringLiteral : Advances stringLiteral := by
  intro s _ rest hRead
  cases s with
  | nil => cases hRead
  | cons c s =>
      rw [stringLiteral] at hRead
      split at hRead
      · split at hRead
        · next content last hBody =>
            cases hRead
            have hSuffix := stringBody_suffix hBody
            exact ⟨hSuffix.trans (List.suffix_cons c s),
              Nat.lt_succ_of_le hSuffix.length_le⟩
        · cases hRead
      · cases hRead

/- At least one digit is taken. -/
theorem advances_digits : Advances digits := by
  intro s ds rest hRead
  have hSplit : s.takeWhile Char.isDigit
      ++ s.dropWhile Char.isDigit = s :=
    List.takeWhile_append_dropWhile
  rw [digits] at hRead
  split at hRead
  · cases hRead
  · next d _ hRun =>
      cases hRead
      have hLength := congrArg List.length hSplit
      rw [hRun, List.length_append, List.length_cons] at hLength
      exact ⟨List.dropWhile_suffix _, by omega⟩

theorem advances_unit : Advances unit :=
  ((advances_word rfl).map _).orElse <|
    ((advances_word rfl).map _).orElse <|
    ((advances_word rfl).map _).orElse <|
    ((advances_word rfl).map _).orElse <|
    ((advances_word rfl).map _).orElse
      ((advances_word rfl).map _)

/- An amount comes before its unit. -/
theorem advances_span : Advances span := by
  refine Advances.convert ?_ _
  refine (advances_digits.convert _).bind fun n => ?_
  refine advances_unit.trims.bind fun factor => ?_
  exact trims_boundary.bind fun _ => trims_pure _

/- A fraction may be absent, but the whole part may not. -/
theorem advances_number : Advances number := by
  have hFraction : Trims (do symbol '.'; digits) :=
    (advances_symbol '.').trims.bind fun _ =>
      advances_digits.trims
  refine Advances.convert ?_ _
  refine advances_digits.bind fun whole => ?_
  refine hFraction.optional.bind fun fraction => ?_
  exact trims_boundary.bind fun _ => trims_pure _

/- The letter in front and the text in quotes. -/
theorem advances_timestamp : Advances timestamp := by
  refine Advances.convert ?_ _
  refine (advances_keyword rfl).bind fun _ => ?_
  refine trims_layout.bind fun _ => ?_
  refine (advances_symbol '(').trims.bind fun _ => ?_
  refine trims_layout.bind fun _ => ?_
  refine advances_stringLiteral.trims.bind fun s => ?_
  refine trims_layout.bind fun _ => ?_
  exact (advances_symbol ')').trims.bind fun _ => trims_pure s

end Lexeme

end TypedFlux

------------------------------------------------------------
-- Expressions
------------------------------------------------------------

namespace TypedFlux

namespace Grammar

open Lexeme Reader

variable {α : Type}
variable {inner : Reader Node}

theorem advances_comma : Advances comma :=
  trims_layout.before fun _ =>
    (advances_symbol ',').bind fun _ => trims_layout

/- What is enclosed may be empty, the brackets are there. -/
theorem advances_enclosed
    {content : Reader α}
    (hContent : Trims content)
    (opening closing : Char) :
    Advances (enclosed opening closing content) := by
  refine (advances_symbol opening).bind fun _ => ?_
  refine trims_layout.bind fun _ => ?_
  refine hContent.bind fun value => ?_
  refine trims_layout.bind fun _ => ?_
  exact (advances_symbol closing).trims.bind fun _ =>
    trims_pure value

/- Parentheses stand around no arguments as well. -/
theorem advances_arguments
    (hInner : Trims inner) :
    Advances (arguments inner) :=
  advances_enclosed (hInner.sepBy advances_comma.trims) '(' ')'

theorem advances_atom : Advances atom :=
  (advances_timestamp.map _).orElse <|
    (advances_span.map _).orElse <|
    (advances_number.map _).orElse <|
    (advances_stringLiteral.map _).orElse <|
    ((advances_keyword rfl).map _).orElse <|
    ((advances_keyword rfl).map _).orElse
      (advances_name.map _)

/- Every form of a primary expression takes something. -/
theorem advances_primary
    (hInner : Trims inner) :
    Advances (primary inner) := by
  have hItems := hInner.sepBy advances_comma.trims
  have hArray :=
    (advances_enclosed hItems '[' ']').map Node.array
  exact (advances_enclosed hInner '(' ')').orElse
    (hArray.orElse advances_atom)

/- A dot or a bracket comes first. -/
theorem advances_accessor
    (hInner : Trims inner) :
    Advances (accessor inner) := by
  refine Advances.orElse ?_ ?_
  · refine (advances_symbol '.').bind fun _ => ?_
    refine advances_name.trims.bind fun x => ?_
    refine (advances_arguments hInner).trims.optional.bind
      fun args? => ?_
    cases args? with
    | some args => exact trims_pure (Accessor.call x args)
    | none => exact trims_pure (Accessor.field x)
  · exact (advances_enclosed hInner '[' ']').map Accessor.index

/- A primary expression comes first, then any accessors. -/
theorem advances_accessed
    (hInner : Trims inner) :
    Advances (accessed inner) := by
  refine (advances_primary hInner).bind fun n => ?_
  refine (advances_accessor hInner).trims.many.bind
    fun accessors => ?_
  exact trims_pure _

/- A sign is a character more. -/
theorem advances_unary
    (hInner : Trims inner) :
    Advances (unary inner) := by
  have hSign : ∀ {c : Char} {s rest : List Char},
      rest <:+ s.dropWhile Text.isLayout ∧
        rest.length < (s.dropWhile Text.isLayout).length →
      rest <:+ c :: s ∧ rest.length < (c :: s).length := by
    intro c s rest hRest
    have hLayout : s.dropWhile Text.isLayout <:+ c :: s :=
      (List.dropWhile_suffix _).trans (List.suffix_cons c s)
    exact ⟨hRest.1.trans hLayout,
      Nat.lt_of_lt_of_le hRest.2 hLayout.length_le⟩
  refine unary_induction (P := fun s reply => ∀ n rest,
    reply = .ok n rest → rest <:+ s ∧ rest.length < s.length)
    ?_ ?_ ?_ ?_
  · exact advances_accessed hInner
  · rintro s n rest ih _ _ ⟨⟩
    exact hSign (ih n rest rfl)
  · rintro s n rest ih _ _ ⟨⟩
    exact hSign (ih n rest rfl)
  · rintro c s fault _ _ _ ⟨⟩

/- There may be no further operand. -/
theorem trims_chainTail
    {operand : Reader Node}
    {operator : Reader BinaryOp}
    (hOperand : Trims operand)
    (hOperator : Trims operator)
    (left : Node) :
    Trims (chainTail operand operator left) := by
  intro s
  fun_induction chainTail operand operator left s with
  | case1 left s op between hOp right rest hRight _ ih =>
      intro n last hTail
      have hAfter := (hOperand _ right rest hRight).trans
        (List.dropWhile_suffix _)
      have hBefore := (hOperator _ op between hOp).trans
        (List.dropWhile_suffix _)
      exact ((ih n last hTail).trans hAfter).trans hBefore
  | case2 left s | case5 left s =>
      rintro _ last ⟨⟩
      exact List.suffix_refl s
  | case3 | case4 | case6 => rintro _ last ⟨⟩

/- An operator is a word with blanks around it. -/
theorem advances_operator
    {w : String}
    {first : Char}
    {others : List Char}
    (op : BinaryOp)
    (hWord : w.toList = first :: others) :
    Advances (operator w op) :=
  (advances_word hWord).map fun _ => op

/- So are all operators of a level. -/
theorem advances_operatorAt
    (level : Nat) :
    Advances (operatorAt level) := by
  rcases level with _ | _ | _ | _ | level
  · exact advances_operator .orElse rfl
  · exact advances_operator .andAlso rfl
  · exact (advances_operator .equal rfl).orElse <|
      (advances_operator .notEqual rfl).orElse <|
      (advances_operator .lessThanOrEqual rfl).orElse <|
      (advances_operator .greaterThanOrEqual rfl).orElse <|
      (advances_operator .lessThan rfl).orElse
        (advances_operator .greaterThan rfl)
  · exact (advances_operator .add rfl).orElse
      (advances_operator .subtract rfl)
  · exact (advances_operator .multiply rfl).orElse <|
      (advances_operator .divide rfl).orElse
        (advances_operator .modulo rfl)

/- A chain has a first operand. -/
theorem advances_chain
    {operand : Reader Node}
    {operator : Reader BinaryOp}
    (hOperand : Advances operand)
    (hOperator : Advances operator) :
    Advances (chain operand operator) :=
  hOperand.bind fun left =>
    trims_chainTail hOperand.trims hOperator.trims left

/- A comparison has a right side, or is none at all. -/
theorem trims_compared
    (hSum : Trims (sum inner)) :
    Trims (compared inner) := by
  refine trims_layout.bind fun _ => ?_
  refine (advances_operatorAt 2).trims.bind fun op => ?_
  refine trims_layout.bind fun _ => ?_
  exact hSum.bind fun right => trims_pure (op, right)

/- A sum comes first in any case. -/
theorem advances_comparison
    (hSum : Advances (sum inner)) :
    Advances (comparison inner) := by
  refine hSum.bind fun left => ?_
  refine (trims_compared hSum.trims).optional.bind
    fun compared? => ?_
  cases compared? with
  | none => exact trims_pure left
  | some compared => exact trims_pure _

/- Every level advances, from the tightest to the loosest. -/
theorem advances_readerAt
    (hInner : Trims inner)
    (level : Nat) :
    Advances (readerAt inner level) := by
  have hAccessed := advances_accessed hInner
  have hUnary := advances_unary hInner
  have hProduct := advances_chain hUnary (advances_operatorAt 4)
  have hSum := advances_chain hProduct (advances_operatorAt 3)
  have hComparison := advances_comparison hSum
  have hConjunction :=
    advances_chain hComparison (advances_operatorAt 1)
  have hDisjunction :=
    advances_chain hConjunction (advances_operatorAt 0)
  rcases level with _ | _ | _ | _ | _ | _ | level
  · exact hDisjunction
  · exact hConjunction
  · exact hComparison
  · exact hSum
  · exact hProduct
  · exact hUnary
  · exact hAccessed

/-
  At every depth, by induction on it. At the bottom nothing is
  read at all.
-/
theorem advances_nested
    (depth : Nat) :
    Advances (nested depth) := by
  induction depth with
  | zero => rintro s n rest ⟨⟩
  | succ depth ih => exact advances_readerAt ih.trims 0

theorem advances_expression : Advances expression :=
  fun s => advances_nested (s.length + 1) s

end Grammar

end TypedFlux

------------------------------------------------------------
-- Queries
------------------------------------------------------------

namespace TypedFlux

namespace Grammar

open Lexeme Reader

/- A direction may be absent. -/
theorem advances_ordering : Advances ordering := by
  refine advances_expression.bind fun key => ?_
  refine Trims.bind (Trims.optional ?_) fun direction? =>
    trims_pure _
  refine advances_layout1.trims.bind fun _ => ?_
  exact (((advances_keyword rfl).map _).orElse
    ((advances_keyword rfl).map _)).trims

/- Both clauses begin with a keyword. -/
theorem advances_clause : Advances clause := by
  refine Advances.orElse ?_ ?_
  · refine (advances_keyword rfl).bind fun _ => ?_
    refine advances_layout1.trims.bind fun _ => ?_
    exact advances_expression.trims.bind fun predicate =>
      trims_pure _
  · refine (advances_keyword rfl).bind fun _ => ?_
    refine advances_layout1.trims.bind fun _ => ?_
    exact (advances_ordering.sepBy1
      advances_comma.trims).trims.bind fun keys => trims_pure _

/- A dot comes before the name of an operator. -/
theorem advances_operatorCall : Advances operatorCall := by
  refine (advances_symbol '.').bind fun _ => ?_
  refine trims_layout.bind fun _ => ?_
  refine advances_name.trims.bind fun method => ?_
  refine trims_layout.bind fun _ => ?_
  exact (advances_arguments
    advances_expression.trims).trims.bind fun args =>
      trims_pure _

/- A clause with the layout before it. -/
def laidClause : Reader Clause := do
  layout1
  clause

/- A call with the layout before it. -/
def laidCall : Reader OperatorCall := do
  layout
  operatorCall

theorem advances_laidClause : Advances laidClause :=
  advances_layout1.bind fun _ => advances_clause.trims

theorem advances_laidCall : Advances laidCall :=
  trims_layout.before fun _ => advances_operatorCall

/- A query begins with a keyword. -/
theorem advances_comprehension : Advances comprehension := by
  refine (advances_keyword rfl).bind fun _ => ?_
  refine advances_layout1.trims.bind fun _ => ?_
  refine advances_name.trims.bind fun variableName => ?_
  refine advances_layout1.trims.bind fun _ => ?_
  refine (advances_keyword rfl).trims.bind fun _ => ?_
  refine advances_layout1.trims.bind fun _ => ?_
  refine advances_name.trims.bind fun entity => ?_
  refine advances_laidClause.trims.many.bind fun clauses => ?_
  refine advances_layout1.trims.bind fun _ => ?_
  refine (advances_keyword rfl).trims.bind fun _ => ?_
  refine advances_layout1.trims.bind fun _ => ?_
  exact advances_name.trims.bind fun selected => trims_pure _

/- So does one in parentheses, behind the first of them. -/
theorem advances_fullQuery : Advances fullQuery := by
  have hQuery := (advances_enclosed
    advances_comprehension.trims '(' ')').orElse
    advances_comprehension
  refine trims_layout.before fun _ => ?_
  refine hQuery.bind fun query => ?_
  refine advances_laidCall.trims.many.bind fun operators => ?_
  exact trims_layout.bind fun _ => trims_pure _

end Grammar

end TypedFlux
