import TypedFlux.Proofs.Syntax.Substitution

/-
  The name of the range variable.

  A query declares its range variable and hides a bound
  constant of the same name.  So the variable can have any
  name that the query does not use for something else: the
  resolved query is the same, and a query that is refused
  under one name is refused under the other.

  Key definitions include:
    * `Comprehension.rename`

  Key theorems include:
    * `Comprehension.resolve_rename`
-/

namespace TypedFlux

/- A name, or the new name of the range variable. -/
def renamed (variableName variableName' x : String) : String :=
  if x = variableName then variableName' else x

/-
  Give the range variable another name: where it is declared,
  where it is selected and in every expression.
-/
def Comprehension.rename
    (variableName' : String)
    (c : Comprehension) : Comprehension :=
  { c.replace fun x =>
      .ident (renamed c.variableName variableName' x) with
    variableName := variableName'
    selected := renamed c.variableName variableName' c.selected }

/- Only the range variable gets a new name. -/
theorem renamed_eq_iff
    {variableName' x : String}
    (hFresh : x ≠ variableName')
    (variableName : String) :
    renamed variableName variableName' x = variableName' ↔
      x = variableName := by
  unfold renamed
  split
  · next hVariable => exact iff_of_true rfl hVariable
  · next hOther => exact iff_of_false hFresh hOther

/-
  A new name is faithful for every name but itself.  Neither
  name of the variable is looked up among the bound constants.
-/
theorem Node.faithfulAt_renamed
    {variableName' x : String}
    (hFresh : x ≠ variableName')
    (variableName : String)
    (bindings : Bindings) :
    FaithfulAt
      (fun y => .ident (renamed variableName variableName' y))
      variableName bindings variableName' bindings x where
  meaning := by
    have hRole := renamed_eq_iff hFresh variableName
    by_cases hVariable : x = variableName
    · simp only [resolve, if_pos (hRole.mpr hVariable),
        if_pos hVariable]
      trivial
    · have hKept : renamed variableName variableName' x = x :=
        if_neg hVariable
      simp only [resolve, hKept, if_neg hFresh,
        if_neg hVariable]
      exact Alike.refl _
  rangeVariable := by
    rw [Node.ident.injEq]
    exact renamed_eq_iff hFresh variableName
  memberless := rfl

namespace Comprehension

/-
  Under a new name that the query uses nowhere, the range
  variable changes nothing: the query resolves to the same
  result, or is refused for the same kind of reason, even if
  constants are bound to one of the names or to both.
-/
theorem resolve_rename
    (registry : Registry)
    (bindings : Bindings)
    (c : Comprehension)
    (variableName' : String)
    (hFresh : variableName' ∉ c.names)
    (hSelected : c.selected ≠ variableName') :
    Alike
      ((c.rename variableName').resolve registry bindings)
      (c.resolve registry bindings) := by
  refine c.resolve_redeclare registry _
    (renamed_eq_iff hSelected c.variableName) ?_
  intro x hName
  have hOther : x ≠ variableName' := by
    rintro rfl
    exact hFresh hName
  exact Node.faithfulAt_renamed hOther c.variableName bindings

/- Rooms above a limit, and a few of them. -/
def warmRooms : Comprehension where
  variableName := "r"
  entity := "Room"
  clauses :=
    [.filter (.binary .greaterThan
      (.field (.ident "r") "Warmth")
      (.ident "limit"))]
  selected := "r"
  operators := [⟨"Take", [.ident "few"]⟩]

/- Constants that have the old and the new name, and others. -/
def warmBindings : Bindings :=
  [("limit", .int 21), ("few", .int 3), ("r", .int 4),
    ("room", .int 5)]

theorem resolve_rename_warmRooms :
    "room" ∉ warmRooms.names ∧ warmRooms.selected ≠ "room" ∧
      Alike
        ((warmRooms.rename "room").resolve Registry.full
          warmBindings)
        (warmRooms.resolve Registry.full warmBindings) ∧
      ∃ q, warmRooms.resolve Registry.full warmBindings =
        .ok q :=
  ⟨by decide, by decide,
    resolve_rename _ _ _ _ (by decide) (by decide), _, rfl⟩

end Comprehension

end TypedFlux
