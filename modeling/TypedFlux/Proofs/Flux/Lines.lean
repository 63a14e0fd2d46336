import TypedFlux.Proofs.Flux.Literals
import TypedFlux.Proofs.Flux.Quoting
import TypedFlux.Proofs.Flux.Stages

/-
  The lines of a text.

  Lines are told apart by the characters that end them.  Joined
  lines are found again if none of them has such a character
  inside.  Strings are escaped, so no option and no stage has.

  Key definitions include:
    * `Text.OneLine`
    * `Text.lines`

  Key theorems include:
    * `Text.lines_join`
    * `Literal.oneLine_text`
    * `Stage.oneLine_text`
-/

------------------------------------------------------------
-- Lines
------------------------------------------------------------

namespace TypedFlux

namespace Text

/- No line ends within the text. -/
def OneLine (s : String) : Prop :=
  '\n' ∉ s.toList

instance (s : String) : Decidable (OneLine s) :=
  inferInstanceAs (Decidable (¬ _))

/- The lines of a text. -/
def lines (s : String) : List String :=
  (s.toList.splitOn '\n').map String.ofList

/- Texts of one line in a row are one line. -/
theorem OneLine.append
    {s t : String}
    (hFirst : OneLine s)
    (hSecond : OneLine t) :
    OneLine (s ++ t) := by
  unfold OneLine
  rw [String.toList_append, List.mem_append]
  exact fun hMem => hMem.elim hFirst hSecond

/- So are joined ones, if the separator is. -/
theorem oneLine_join
    {separator : String}
    {texts : List String}
    (hSeparator : OneLine separator)
    (hTexts : ∀ s ∈ texts, OneLine s) :
    OneLine (separator.intercalate texts) := by
  cases texts with
  | nil => exact List.not_mem_nil
  | cons first others =>
      rw [List.forall_mem_cons] at hTexts
      unfold OneLine
      rw [Lexeme.toList_join, List.mem_append]
      rintro (hMem | hMem)
      · exact hTexts.1 hMem
      · rcases List.mem_flatMap.mp hMem with ⟨text, hText, hMem⟩
        rcases List.mem_append.mp hMem with hMem | hMem
        · exact hSeparator hMem
        · exact hTexts.2 text hText hMem

theorem oneLine_of_isDigit
    {s : String}
    (hDigits : ∀ c ∈ s.toList, c.isDigit = true) :
    OneLine s := by
  intro hMem
  exact absurd (hDigits _ hMem) (by decide)

/- Joined lines are found again. -/
theorem lines_join
    {texts : List String}
    (hLines : ∀ s ∈ texts, OneLine s)
    (hNonempty : texts ≠ []) :
    lines ("\n".intercalate texts) = texts := by
  have hJoin : ("\n".intercalate texts).toList =
      ['\n'].intercalate (texts.map String.toList) := by
    cases texts with
    | nil => exact absurd rfl hNonempty
    | cons first others =>
        clear hLines hNonempty
        induction others generalizing first with
        | nil => simp
        | cons next others ih =>
            rw [String.intercalate_cons_cons, String.toList_append,
              String.toList_append, ih]
            simp
  unfold lines
  rw [hJoin, List.splitOn_intercalate]
  · simp [Function.comp_def]
  · intro s hMem
    rcases List.mem_map.mp hMem with ⟨text, hText, rfl⟩
    exact hLines text hText
  · simpa using hNonempty

end Text

end TypedFlux

------------------------------------------------------------
-- Literals
------------------------------------------------------------

namespace TypedFlux

open Text

theorem Numeral.oneLine_ofNat
    (n : Nat) :
    OneLine (ofNat n) :=
  oneLine_of_isDigit fun _ hMem =>
    Lexeme.isDigit_of_mem_ofNat hMem

theorem Numeral.oneLine_ofInt
    (n : Int) :
    OneLine (ofInt n) := by
  have hMinus : OneLine "-" := by decide
  unfold ofInt
  split
  · exact hMinus.append (oneLine_ofNat _)
  · exact oneLine_ofNat _

theorem Numeral.oneLine_padded
    (width n : Nat) :
    OneLine (padded width n) :=
  oneLine_of_isDigit fun _ hMem => isDigit_of_mem_padded hMem

/- A line break in quotes is escaped. -/
theorem Flux.oneLine_quote
    (s : String) :
    OneLine (quote s) :=
  notMem_quote (.inl rfl) s

/- An instant is written on one line. -/
theorem Instant.oneLine_text
    (t : Instant) :
    OneLine t.text := by
  have hYear : ∀ year, OneLine (Clock.yearText year) := by
    intro year
    have hDigits := Numeral.oneLine_padded 4 year.natAbs
    have hMinus : OneLine "-" := by decide
    have hPlus : OneLine "+" := by decide
    unfold Clock.yearText
    split
    · exact hMinus.append hDigits
    · split
      · exact hPlus.append hDigits
      · exact hDigits
  have hFraction : ∀ nanos,
      OneLine (Clock.fractionText nanos) := by
    intro nanos
    have hPoint : OneLine "." := by decide
    unfold Clock.fractionText
    split
    · decide
    · split
      · exact hPoint.append (Numeral.oneLine_padded _ _)
      · split
        · exact hPoint.append (Numeral.oneLine_padded _ _)
        · exact hPoint.append (Numeral.oneLine_padded _ _)
  have hPadded : ∀ {s : String} (mark : String) (n : Nat),
      OneLine mark → OneLine s →
        OneLine (s ++ mark ++ Numeral.padded 2 n) :=
    fun mark n hMark hText => (hText.append hMark).append
      (Numeral.oneLine_padded 2 n)
  have hZone : OneLine "Z" := by decide
  unfold Instant.text
  refine OneLine.append (OneLine.append ?_ (hFraction _)) hZone
  exact hPadded ":" _ (by decide) <|
    hPadded ":" _ (by decide) <|
    hPadded "T" _ (by decide) <|
    hPadded "-" _ (by decide) <|
    hPadded "-" _ (by decide) (hYear _)

/- The text of a literal without a point is one line. -/
theorem Literal.oneLine_text
    (l : Literal)
    (hPlain : l.hasFloat = false) :
    OneLine l.text := by
  induction l with
  | integer n => exact Numeral.oneLine_ofInt _
  | unsigned n => exact Numeral.oneLine_ofNat _
  | boolean b => cases b <;> decide
  | float x => cases hPlain
  | string s => exact Flux.oneLine_quote s
  | time t => exact t.oneLine_text
  | duration n =>
      have hUnit : OneLine "us" := by decide
      exact (Numeral.oneLine_ofInt _).append hUnit
  | array items ih =>
      have hPlain := hasFloats_eq_false.mp hPlain
      have hOpening : OneLine "[" := by decide
      have hClosing : OneLine "]" := by decide
      have hItems : OneLine (", ".intercalate (texts items)) := by
        apply oneLine_join (by decide)
        rw [texts_eq_map, List.forall_mem_map]
        exact fun item hMem => ih item hMem (hPlain item hMem)
      exact (hOpening.append hItems).append hClosing

theorem Variables.oneLine_nameAfter
    (n : Nat) :
    OneLine (nameAfter n) := by
  have hLetter : OneLine "p" := by decide
  exact hLetter.append (Numeral.oneLine_ofNat _)

end TypedFlux

------------------------------------------------------------
-- Stages
------------------------------------------------------------

namespace TypedFlux

namespace Stage

open Text

/- A call is on one line if its arguments are. -/
theorem oneLine_call
    {function : String}
    {arguments : List (String × String)}
    (hFunction : OneLine function)
    (hArguments : ∀ a ∈ arguments, OneLine a.1 ∧ OneLine a.2) :
    OneLine (call function arguments) := by
  have hOpening : OneLine "(" := by decide
  have hClosing : OneLine ")" := by decide
  have hColon : OneLine ": " := by decide
  refine ((hFunction.append hOpening).append
    (oneLine_join (by decide) ?_)).append hClosing
  rw [List.forall_mem_map]
  intro a hMem
  rcases hArguments a hMem with ⟨hName, hValue⟩
  exact (hName.append hColon).append hValue

/- A stage is one line if its conditions are. -/
theorem oneLine_text
    (stage : Stage)
    (hConditions : ∀ conditions, stage = .filter conditions →
      OneLine (" and ".intercalate (conditions.map (·.text)))) :
    OneLine stage.text := by
  have hName := Variables.oneLine_nameAfter
  have hOptional : ∀ {argument : String} (position? : Option Nat),
      OneLine argument →
        ∀ a ∈ optional argument position?,
          OneLine a.1 ∧ OneLine a.2 := by
    intro argument position? hArgument a hMem
    rcases Option.map_eq_some_iff.mp
      (Option.mem_toList.mp hMem) with ⟨n, _, rfl⟩
    exact ⟨hArgument, hName n⟩
  cases stage with
  | source bucket =>
      refine oneLine_call (by decide) ?_
      simp only [List.mem_singleton, forall_eq]
      exact ⟨by decide, hName bucket⟩
  | range start stop? =>
      have hStart : OneLine "start" := by decide
      refine oneLine_call (by decide) ?_
      rw [List.forall_mem_cons]
      exact ⟨⟨hStart, hName start⟩, hOptional stop? (by decide)⟩
  | pivot => decide
  | filter conditions =>
      have hRow : OneLine "(r) => " := by decide
      refine oneLine_call (by decide) ?_
      simp only [List.mem_singleton, forall_eq]
      exact ⟨by decide, hRow.append (hConditions _ rfl)⟩
  | sort column descending =>
      have hOpening : OneLine "[" := by decide
      have hColumn := (hOpening.append
        (Flux.oneLine_quote column)).append
          (by decide : OneLine "]")
      refine oneLine_call (by decide) ?_
      simp only [List.forall_mem_cons]
      exact ⟨⟨by decide, hColumn⟩,
        ⟨by decide, hName descending⟩, by simp⟩
  | limit count? offset? =>
      have hNumber : OneLine "n" := by decide
      refine oneLine_call (by decide) ?_
      rw [List.forall_mem_cons]
      refine ⟨⟨hNumber, ?_⟩, hOptional offset? (by decide)⟩
      cases count? with
      | none => decide
      | some n => exact hName n
  | tail count =>
      refine oneLine_call (by decide) ?_
      simp only [List.mem_singleton, forall_eq]
      exact ⟨by decide, hName count⟩
  | runningCount => decide
  | lastRow => decide
  | keepCount => decide

end Stage

end TypedFlux
