import TypedFlux.Proofs.Flux.Arguments

/-
  Stable sorts, one after the other.

  A stable sort keeps the order of rows that are tied.  So the
  rows are at the end in the order of the last sort first, and
  every sort before it decides among those that are tied.

  Key definitions include:
    * `Comparison`, `Comparison.thenBy`
    * `StableSort`, `Sorter`
    * `SortBy.lexicographic`, `SortBy.leading`
    * `Script.sortRows`

  Key theorems include:
    * `StableSort.thenBy`
    * `Sorter.stableSort_sortAll`
    * `SortBy.lexicographic_leading`
    * `SortBy.leading_eq`
-/

------------------------------------------------------------
-- Comparisons
------------------------------------------------------------

namespace TypedFlux

variable {α : Type}

/- A total order in which different rows may be tied. -/
@[ext]
structure Comparison (α : Type) where
  le : α → α → Bool
  total : ∀ x y, (le x y || le y x) = true
  trans : ∀ x y z, le x y = true → le y z = true → le x z = true

namespace Comparison

/- Whether neither row comes before the other. -/
def tied
    (c : Comparison α)
    (x y : α) : Bool :=
  c.le x y && c.le y x

theorem refl
    (c : Comparison α)
    (x : α) :
    c.le x x = true := by
  have hTotal := c.total x x
  rw [Bool.or_self] at hTotal
  exact hTotal

theorem tied_self
    (c : Comparison α)
    (x : α) :
    c.tied x x = true := by
  rw [tied, c.refl, Bool.and_self]

/- Rows that are tied with one row are tied with each other. -/
theorem le_of_tied
    (c : Comparison α)
    {x y z : α}
    (hFirst : c.tied x y = true)
    (hSecond : c.tied x z = true) :
    c.le y z = true := by
  rw [tied, Bool.and_eq_true] at hFirst hSecond
  exact c.trans y x z hFirst.2 hSecond.1

/- All rows are tied. -/
def indifferent : Comparison α where
  le _ _ := true
  total _ _ := rfl
  trans _ _ _ _ _ := rfl

/- The order from the end. -/
def reverse (c : Comparison α) : Comparison α where
  le x y := c.le y x
  total x y := c.total y x
  trans x y z hFirst hSecond := c.trans z y x hSecond hFirst

/- The second order decides where rows are tied in the first. -/
def thenBy (c d : Comparison α) : Comparison α where
  le x y := if c.tied x y then d.le x y else c.le x y
  total x y := by
    have hFirst := c.total x y
    have hSecond := d.total x y
    unfold tied
    cases hForth : c.le x y <;> cases hBack : c.le y x <;>
      simp_all
  trans x y z hForth hOn := by
    have hAcross := c.trans x y z
    have hBack := c.trans z x y
    have hReturn := c.trans y z x
    have hSecond := d.trans x y z
    grind [tied]

/- The second comparison decides among tied rows. -/
theorem thenBy_of_tied
    {c d : Comparison α}
    {x y : α}
    (hTied : c.tied x y = true) :
    (c.thenBy d).le x y = d.le x y :=
  if_pos hTied

theorem tied_thenBy
    (c d : Comparison α)
    (x y : α) :
    (c.thenBy d).tied x y = (c.tied x y && d.tied x y) := by
  cases hForth : c.le x y <;> cases hBack : c.le y x <;>
    simp [tied, thenBy, hForth, hBack]

end Comparison

------------------------------------------------------------
-- Stable Sorts
------------------------------------------------------------

/- The rows in order, where tied rows stay as they were. -/
structure StableSort
    (c : Comparison α)
    (rows sorted : List α) : Prop where
  perm : sorted.Perm rows
  ordered : sorted.Pairwise fun x y => c.le x y = true
  stable : ∀ x, sorted.filter (c.tied x) = rows.filter (c.tied x)

namespace StableSort

open Comparison

variable {c d : Comparison α}
variable {rows mid sorted : List α}

/- Without a comparison rows stay where they are. -/
theorem indifferent
    (rows : List α) :
    StableSort Comparison.indifferent rows rows where
  perm := .refl rows
  ordered := List.pairwise_of_forall fun _ _ => rfl
  stable _ := rfl

/- What was sorted before decides among tied rows. -/
theorem thenBy
    (hBefore : StableSort d rows mid)
    (hSort : StableSort c mid sorted) :
    StableSort (c.thenBy d) rows sorted where
  perm := hSort.perm.trans hBefore.perm
  ordered := by
    rw [List.pairwise_iff_forall_sublist]
    intro x y hPair
    have hOrder :=
      List.pairwise_iff_forall_sublist.mp hSort.ordered hPair
    cases hTied : c.tied x y with
    | false => simp [Comparison.thenBy, hTied, hOrder]
    | true =>
        -- Tied rows stand as they stood before.
        have hSame : [x, y].Sublist (mid.filter (c.tied x)) := by
          rw [← hSort.stable x]
          have hFilter := hPair.filter (c.tied x)
          rw [List.filter_cons_of_pos (c.tied_self x),
            List.filter_cons_of_pos hTied, List.filter_nil]
            at hFilter
          exact hFilter
        rw [thenBy_of_tied hTied]
        exact List.pairwise_iff_forall_sublist.mp hBefore.ordered
          (hSame.trans List.filter_sublist)
  stable x := by
    have hBoth : ∀ l : List α, l.filter ((c.thenBy d).tied x) =
        (l.filter (c.tied x)).filter (d.tied x) := by
      intro l
      rw [List.filter_filter]
      apply List.filter_congr
      intro y _
      rw [tied_thenBy, Bool.and_comm]
    have hSwap : ∀ l : List α,
        (l.filter (c.tied x)).filter (d.tied x) =
          (l.filter (d.tied x)).filter (c.tied x) := by
      intro l
      simp only [List.filter_filter, Bool.and_comm]
    rw [hBoth, hSort.stable, hSwap, hBefore.stable, ← hSwap,
      ← hBoth]

/- Two rows change places only if they are out of order. -/
theorem pair
    {x y : α}
    (hDiffer : x ≠ y)
    (hSort : StableSort c [x, y] sorted) :
    sorted = if c.le x y then [x, y] else [y, x] := by
  rcases List.length_eq_two.mp hSort.perm.length_eq with
    ⟨u, v, rfl⟩
  have hFirst : u ∈ [x, y] :=
    hSort.perm.mem_iff.mp List.mem_cons_self
  rw [List.mem_pair] at hFirst
  rcases hFirst with rfl | rfl
  · cases List.perm_singleton.mp hSort.perm.cons_inv
    rw [if_pos (List.rel_of_pairwise_cons hSort.ordered
      List.mem_cons_self)]
  · have hPerm := hSort.perm.trans (.swap u _ [])
    cases List.perm_singleton.mp hPerm.cons_inv
    split
    next hOrder =>
      -- Both orders hold, so the two rows are tied.
      have hBack : c.le u x = true :=
        List.rel_of_pairwise_cons hSort.ordered
          List.mem_cons_self
      have hTied : c.tied x u = true := by
        rw [tied, hOrder, hBack, Bool.and_self]
      simpa [hTied, c.tied_self x] using hSort.stable x
    next => rfl

/- Orders that sort two rows alike agree on them. -/
theorem le_eq
    {x y : α}
    (hSort : StableSort c [x, y] sorted)
    (hSort' : StableSort d [x, y] sorted) :
    c.le x y = d.le x y := by
  by_cases hDiffer : x = y
  · rw [hDiffer, c.refl, d.refl]
  · have hSame := (hSort.pair hDiffer).symm.trans
      (hSort'.pair hDiffer)
    cases hFirst : c.le x y <;> cases hSecond : d.le x y <;>
      simp_all

end StableSort

/- A way to sort rows by any order. -/
structure Sorter (α : Type) where
  sort : Comparison α → List α → List α
  stable : ∀ c rows, StableSort c rows (sort c rows)

/- Rows that are merged from sorted halves. -/
def Sorter.merge : Sorter α where
  sort c rows := rows.mergeSort c.le
  stable c rows := by
    have hPerm := List.mergeSort_perm rows c.le
    have hOrdered := List.pairwise_mergeSort c.trans c.total rows
    refine ⟨hPerm, hOrdered, fun x => Eq.symm ?_⟩
    -- Tied rows are in order, so they stay a part of the list.
    have hTied : (rows.filter (c.tied x)).Pairwise fun y z =>
        c.le y z = true := by
      apply List.pairwise_of_forall_mem_list
      intro y hFirst z hSecond
      exact c.le_of_tied (List.mem_filter.mp hFirst).2
        (List.mem_filter.mp hSecond).2
    have hKept := (List.sublist_mergeSort c.trans c.total hTied
      List.filter_sublist).filter (c.tied x)
    rw [List.filter_filter] at hKept
    simp only [Bool.and_self] at hKept
    exact hKept.eq_of_length (hPerm.filter _).length_eq.symm

------------------------------------------------------------
-- Keys
------------------------------------------------------------

/- A column to sort by, and from which end. -/
@[ext]
structure SortBy where
  column : String
  descending : Bool
deriving DecidableEq

namespace SortBy

/- The order of rows by a key, given one for every column. -/
def compare
    (order : String → Comparison α)
    (k : SortBy) : Comparison α :=
  if k.descending then (order k.column).reverse
  else order k.column

/- The order by the first key, then by the others. -/
def lexicographic
    (order : String → Comparison α)
    (ks : List SortBy) : Comparison α :=
  ks.foldr (fun k others => (k.compare order).thenBy others)
    .indifferent

/- The first key decides unless it ties. -/
theorem le_lexicographic_cons
    (order : String → Comparison α)
    (k : SortBy)
    (ks : List SortBy)
    (x y : α) :
    (lexicographic order (k :: ks)).le x y =
      if (k.compare order).tied x y then
        (lexicographic order ks).le x y
      else (k.compare order).le x y :=
  rfl

/- The keys whose column has not been sorted by before. -/
def leading : List SortBy → List SortBy
  | [] => []
  | k :: ks =>
      k :: (leading ks).filter fun other =>
        other.column != k.column

variable {order : String → Comparison α}

/- The direction of a key makes no ties. -/
theorem tied_compare
    (order : String → Comparison α)
    (k : SortBy)
    (x y : α) :
    (k.compare order).tied x y =
      (order k.column).tied x y := by
  unfold compare
  split
  · exact Bool.and_comm _ _
  · rfl

/- Rows that are tied in a column need no more keys for it. -/
theorem lexicographic_filter
    {column : String}
    {x y : α}
    (hTied : (order column).tied x y = true)
    (ks : List SortBy) :
    (lexicographic order
        (ks.filter fun k => k.column != column)).le x y =
      (lexicographic order ks).le x y := by
  induction ks with
  | nil => rfl
  | cons k ks ih =>
      by_cases hColumn : k.column = column
      · have hSame : (k.compare order).tied x y = true := by
          rw [tied_compare, hColumn, hTied]
        rw [List.filter_cons_of_neg (by simp [hColumn]), ih,
          le_lexicographic_cons, if_pos hSame]
      · rw [List.filter_cons_of_pos (by simp [hColumn]),
          le_lexicographic_cons, le_lexicographic_cons, ih]

/- Only the leading keys decide. -/
theorem lexicographic_leading
    (order : String → Comparison α)
    (ks : List SortBy) :
    lexicographic order (leading ks) =
      lexicographic order ks := by
  induction ks with
  | nil => rfl
  | cons k ks ih =>
      ext x y
      rw [leading, le_lexicographic_cons, le_lexicographic_cons]
      split
      next hTied =>
        rw [tied_compare] at hTied
        rw [lexicographic_filter hTied, ih]
      next => rfl

/- Of a column only the first key is leading. -/
theorem pairwise_leading
    (ks : List SortBy) :
    (leading ks).Pairwise fun k other =>
      k.column ≠ other.column := by
  induction ks with
  | nil => exact .nil
  | cons k ks ih =>
      refine .cons ?_ (ih.filter _)
      intro other hMem
      have hOther := (List.mem_filter.mp hMem).2
      exact (bne_iff_ne.mp hOther).symm

------------------------------------------------------------
-- Rows That Tell Keys Apart
------------------------------------------------------------

/- The order of rows of flags by a column. -/
def flags (column : String) : Comparison (String → Bool) where
  le x y := !x column || y column
  total x y := by
    cases x column <;> cases y column <;> rfl
  trans x y z hFirst hSecond := by
    cases hMid : y column <;> simp_all

/- Put a row first or last by a key. -/
def place
    (k : SortBy)
    (first : Bool)
    (row : String → Bool) : String → Bool :=
  fun column =>
    if column = k.column then k.descending == first
    else row column

theorem le_of_placed
    {k : SortBy}
    {x y : String → Bool}
    (hFirst : x k.column = k.descending)
    (hLast : y k.column = !k.descending)
    (ks : List SortBy) :
    (lexicographic flags (k :: ks)).le x y = true ∧
      (lexicographic flags (k :: ks)).le y x = false := by
  have hForth : (k.compare flags).le x y = true := by
    unfold compare
    split <;> simp_all [flags, Comparison.reverse]
  have hBack : (k.compare flags).le y x = false := by
    unfold compare
    split <;> simp_all [flags, Comparison.reverse]
  simp [le_lexicographic_cons, Comparison.tied, hForth, hBack]

/- Some rows are not in the order of a key. -/
theorem exists_last
    (b : SortBy)
    (ks : List SortBy) :
    ∃ x y : String → Bool,
      (∀ column, b.column ≠ column → x column = y column) ∧
      (lexicographic flags (b :: ks)).le x y = false := by
  refine ⟨b.place false fun _ => false,
    b.place true fun _ => false, ?_, ?_⟩
  · intro column hOther
    simp [place, hOther.symm]
  · refine (@le_of_placed b _ _ ?_ ?_ ks).2
    · simp [place]
    · simp [place]

/- Two keys put some rows in opposite orders. -/
theorem exists_opposed
    {a b : SortBy}
    (hKeys : a ≠ b)
    (ks ks' : List SortBy) :
    ∃ x y : String → Bool,
      (∀ column, a.column ≠ column → b.column ≠ column →
        x column = y column) ∧
      (lexicographic flags (a :: ks)).le x y = true ∧
      (lexicographic flags (b :: ks')).le x y = false := by
  have hTurned : b.column = a.column →
      b.descending = !a.descending := by
    intro hColumn
    rw [Bool.eq_not]
    intro hDirection
    exact hKeys (SortBy.ext hColumn.symm hDirection.symm)
  refine ⟨a.place true (b.place false fun _ => false),
    a.place false (b.place true fun _ => false), ?_, ?_, ?_⟩
  · intro column hFirst hSecond
    simp [place, hFirst.symm, hSecond.symm]
  · refine (@le_of_placed a _ _ ?_ ?_ ks).1
    · simp [place]
    · simp [place]
  · refine (@le_of_placed b _ _ ?_ ?_ ks').2
    · by_cases hColumn : b.column = a.column
      · simp [place, hColumn, hTurned hColumn]
      · simp [place, hColumn]
    · by_cases hColumn : b.column = a.column
      · simp [place, hColumn, hTurned hColumn]
      · simp [place, hColumn]

/-
  Different keys put some rows in a different order.  These rows
  differ only in columns of the keys.
-/
theorem exists_differ
    {ks ks' : List SortBy}
    (hColumns : ks.Pairwise fun k other =>
      k.column ≠ other.column)
    (hColumns' : ks'.Pairwise fun k other =>
      k.column ≠ other.column)
    (hKeys : ks ≠ ks') :
    ∃ x y : String → Bool,
      (∀ column, (∀ k ∈ ks, k.column ≠ column) →
        (∀ k ∈ ks', k.column ≠ column) →
          x column = y column) ∧
      (lexicographic flags ks).le x y ≠
        (lexicographic flags ks').le x y := by
  induction ks generalizing ks' with
  | nil =>
      cases ks' with
      | nil => exact absurd rfl hKeys
      | cons b ks' =>
          rcases exists_last b ks' with ⟨x, y, hAgree, hLast⟩
          refine ⟨x, y, fun column _ hOther =>
            hAgree column (hOther b List.mem_cons_self), ?_⟩
          rw [hLast]
          exact Bool.noConfusion
  | cons a ks ih =>
      cases ks' with
      | nil =>
          rcases exists_last a ks with ⟨x, y, hAgree, hLast⟩
          refine ⟨x, y, fun column hOther _ =>
            hAgree column (hOther a List.mem_cons_self), ?_⟩
          rw [hLast]
          exact Bool.noConfusion
      | cons b ks' =>
          by_cases hHead : a = b
          -- The others do not sort by the common first column.
          · subst hHead
            rw [List.pairwise_cons] at hColumns hColumns'
            have hRest : ks ≠ ks' := by
              rintro rfl
              exact hKeys rfl
            rcases ih hColumns.2 hColumns'.2 hRest with
              ⟨x, y, hAgree, hDiffer⟩
            have hSame : x a.column = y a.column :=
              hAgree a.column
                (fun k hMem => (hColumns.1 k hMem).symm)
                (fun k hMem => (hColumns'.1 k hMem).symm)
            have hTied : (a.compare flags).tied x y = true := by
              rw [tied_compare, Comparison.tied]
              simp [flags, hSame]
            refine ⟨x, y, ?_, ?_⟩
            · intro column hFirst hSecond
              rw [List.forall_mem_cons] at hFirst hSecond
              exact hAgree column hFirst.2 hSecond.2
            · rw [le_lexicographic_cons, le_lexicographic_cons,
                if_pos hTied, if_pos hTied]
              exact hDiffer
          · rcases exists_opposed hHead ks ks' with
              ⟨x, y, hAgree, hFirst, hLast⟩
            refine ⟨x, y, fun column hA hB =>
              hAgree column (hA a List.mem_cons_self)
                (hB b List.mem_cons_self), ?_⟩
            rw [hFirst, hLast]
            exact Bool.noConfusion

/- Keys that order all rows the same lead by the same columns. -/
theorem leading_eq
    {ks ks' : List SortBy}
    (hSame : ∀ x y, (lexicographic flags ks).le x y =
      (lexicographic flags ks').le x y) :
    leading ks = leading ks' := by
  by_contra hKeys
  rcases exists_differ (pairwise_leading ks)
    (pairwise_leading ks') hKeys with ⟨x, y, _, hDiffer⟩
  rw [lexicographic_leading, lexicographic_leading] at hDiffer
  exact hDiffer (hSame x y)

end SortBy

end TypedFlux

------------------------------------------------------------
-- Rows of Scripts
------------------------------------------------------------

namespace TypedFlux

variable {α : Type}

namespace Sorter

open SortBy

/- Sort rows by one key after the other. -/
def sortAll
    (sorter : Sorter α)
    (order : String → Comparison α)
    (ks : List SortBy)
    (rows : List α) : List α :=
  ks.foldl (fun rows k => sorter.sort (k.compare order) rows) rows

/- Rows that are sorted already are sorted by more keys. -/
theorem stableSort_foldl
    (sorter : Sorter α)
    {order : String → Comparison α}
    {done : List SortBy}
    {rows mid : List α}
    (hBefore : StableSort (lexicographic order done) rows mid)
    (ks : List SortBy) :
    StableSort (lexicographic order (ks.reverse ++ done)) rows
      (sorter.sortAll order ks mid) := by
  induction ks generalizing done mid with
  | nil => exact hBefore
  | cons k ks ih =>
      have hSort := sorter.stable (k.compare order) mid
      have hNext : StableSort (lexicographic order (k :: done))
          rows (sorter.sort (k.compare order) mid) :=
        hBefore.thenBy hSort
      rw [List.reverse_cons, List.append_assoc]
      exact ih hNext

/- The key that is sorted by last decides first. -/
theorem stableSort_sortAll
    (sorter : Sorter α)
    (order : String → Comparison α)
    (ks : List SortBy)
    (rows : List α) :
    StableSort (lexicographic order ks.reverse) rows
      (sorter.sortAll order ks rows) := by
  have hNone : StableSort (lexicographic order []) rows rows :=
    StableSort.indifferent rows
  have hAll := sorter.stableSort_foldl hNone ks
  rw [List.append_nil] at hAll
  exact hAll

end Sorter

/- The key of a sort, whose direction is an option. -/
def SortColumn.key?
    (options : String → Option Literal)
    (s : SortColumn) : Option SortBy :=
  match options s.descending with
  | some (.boolean b) => some ⟨s.column, b⟩
  | _ => none

/- The keys of the sorts of a script, in their order. -/
def Script.keys? (s : Script) : Option (List SortBy) :=
  ((Scan.stages s.query).filterMap Flux.sort?).mapM
    (·.key? s.option?)

/- The rows that the stages of a script sort, one by one. -/
def Script.sortRows
    (sorter : Sorter α)
    (order : String → Comparison α)
    (s : Script)
    (rows : List α) : Option (List α) := do
  let ks ← s.keys?
  return sorter.sortAll order ks rows

end TypedFlux
