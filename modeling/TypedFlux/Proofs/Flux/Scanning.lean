import TypedFlux.Flux.Pipeline
import TypedFlux.Proofs.Syntax.Lexemes

/-
  Stages, found again in the text of a pipeline.

  A scan knows how many parentheses are open and whether it is
  in a string literal.  It parts a text where stages meet, but
  only outside of both.

  Key definitions include:
    * `Scan.Place`, `Scan.Place.next`
    * `Scan.split`, `Scan.stages`
    * `Scan.Tight`
    * `Scan.Closed`

  Key theorems include:
    * `Scan.split_append`
    * `Scan.stages_join`
    * `Scan.closed_quote`
    * `Scan.closed_paren`
-/

------------------------------------------------------------
-- Scans
------------------------------------------------------------

namespace TypedFlux

namespace Scan

/-
  Where a scan stands: in code, in a literal or behind a
  backslash, with a number of open parentheses.
-/
inductive Place where
  | code (depth : Nat)
  | quoted (depth : Nat)
  | escaped (depth : Nat)
deriving DecidableEq

namespace Place

/- The place behind one more character. -/
def next : Place → Char → Place
  | .code depth, c =>
      if c = '\x22' then .quoted depth
      else if c = '(' then .code (depth + 1)
      else if c = ')' then .code (depth - 1)
      else .code depth
  | .quoted depth, c =>
      if c = '\x5c' then .escaped depth
      else if c = '\x22' then .code depth
      else .quoted depth
  | .escaped depth, _ => .quoted depth

/- The place behind a text. -/
def after (p : Place) (cs : List Char) : Place :=
  cs.foldl next p

@[simp] theorem after_nil
    (p : Place) :
    p.after [] = p :=
  rfl

@[simp] theorem after_cons
    (p : Place)
    (c : Char)
    (cs : List Char) :
    p.after (c :: cs) = (p.next c).after cs :=
  rfl

/- The place behind a text, by its parts. -/
theorem after_append
    (p : Place)
    (cs ds : List Char) :
    p.after (cs ++ ds) = (p.after cs).after ds :=
  List.foldl_append

end Place

/- Put a character before the first of some texts. -/
def consFirst
    (c : Char) : List (List Char) → List (List Char)
  | [] => [[c]]
  | text :: rest => (c :: text) :: rest

/-
  The texts between the arrows that stand neither in a literal
  nor in parentheses.
-/
def split : Place → List Char → List (List Char)
  | .code 0, ' ' :: '|' :: '>' :: ' ' :: cs =>
      [] :: split (.code 0) cs
  | p, c :: cs => consFirst c (split (p.next c) cs)
  | _, [] => [[]]

/- The stages of a pipeline, from its text. -/
def stages (text : String) : List String :=
  (split (.code 0) text.toList).map String.ofList

------------------------------------------------------------
-- Texts without Arrows
------------------------------------------------------------

/- No blank stands outside of literals and parentheses. -/
def Tight : Place → List Char → Prop
  | _, [] => True
  | p, c :: cs =>
      (p = .code 0 → c ≠ ' ') ∧ Tight (p.next c) cs

instance decidableTight :
    (p : Place) → (cs : List Char) → Decidable (Tight p cs)
  | _, [] => .isTrue trivial
  | p, c :: cs =>
      have := decidableTight (p.next c) cs
      inferInstanceAs
        (Decidable ((p = .code 0 → c ≠ ' ') ∧ _))

/- Blanks are free in literals and in parentheses. -/
theorem tight_cons
    {p : Place}
    (hInner : p ≠ .code 0)
    {c : Char}
    {cs : List Char}
    (hTight : Tight (p.next c) cs) :
    Tight p (c :: cs) :=
  ⟨fun hOuter => absurd hOuter hInner, hTight⟩

theorem code_succ_ne
    (depth : Nat) :
    Place.code (depth + 1) ≠ .code 0 := by
  intro hSame
  cases hSame

/- A text is tight if its parts are, each from its own place. -/
theorem tight_append
    {p : Place}
    {cs ds : List Char} :
    Tight p (cs ++ ds) ↔ Tight p cs ∧ Tight (p.after cs) ds := by
  induction cs generalizing p with
  | nil => simp [Tight]
  | cons c cs ih =>
      simp only [List.cons_append, Tight, ih, Place.after_cons,
        and_assoc]

/-
  A character that separates nothing belongs to the first
  piece.
-/
theorem split_cons
    {p : Place}
    {c : Char}
    (hTight : p = .code 0 → c ≠ ' ')
    (cs : List Char) :
    split p (c :: cs) = consFirst c (split (p.next c) cs) := by
  rw [split]
  intro ds hCode hBlank _
  exact hTight hCode hBlank

/- Put a text before the first of some texts. -/
def appendFirst
    (cs : List Char)
    (texts : List (List Char)) : List (List Char) :=
  cs.foldr consFirst texts

theorem appendFirst_cons
    (cs text : List Char)
    (texts : List (List Char)) :
    appendFirst cs (text :: texts) = (cs ++ text) :: texts := by
  induction cs with
  | nil => rfl
  | cons c cs ih =>
      simp only [appendFirst, List.foldr_cons,
        List.cons_append] at ih ⊢
      rw [ih]
      rfl

/- A text without arrows belongs to one stage. -/
theorem split_append
    {p : Place}
    {cs : List Char}
    (hTight : Tight p cs)
    (ds : List Char) :
    split p (cs ++ ds) =
      appendFirst cs (split (p.after cs) ds) := by
  induction cs generalizing p with
  | nil => rfl
  | cons c cs ih =>
      rw [List.cons_append, split_cons hTight.1, ih hTight.2]
      rfl

/- A stage that neither begins nor ends another. -/
structure Whole (cs : List Char) : Prop where
  tight : Tight (.code 0) cs
  after : (Place.code 0).after cs = .code 0

/- The stages that were joined are found again. -/
theorem split_join
    {first : String}
    {rest : List String}
    (hWhole : ∀ s ∈ first :: rest, Whole s.toList) :
    split (.code 0)
        (" |> ".intercalate (first :: rest)).toList =
      (first :: rest).map String.toList := by
  induction rest generalizing first with
  | nil =>
      have hFirst := hWhole first List.mem_cons_self
      have hSplit := split_append hFirst.tight []
      rw [hFirst.after, List.append_nil] at hSplit
      change split (.code 0) first.toList = _
      rw [hSplit]
      change appendFirst first.toList [[]] = _
      rw [appendFirst_cons, List.append_nil]
      rfl
  | cons second rest ih =>
      have hFirst := hWhole first List.mem_cons_self
      have hRest := ih fun s hMem =>
        hWhole s (List.mem_cons_of_mem _ hMem)
      have hArrow : ∀ cs : List Char,
          split (.code 0) (" |> ".toList ++ cs) =
            [] :: split (.code 0) cs :=
        fun cs => rfl
      rw [String.intercalate_cons_cons, String.toList_append,
        String.toList_append, List.append_assoc,
        split_append hFirst.tight, hFirst.after, hArrow,
        appendFirst_cons, List.append_nil, hRest]
      rfl

/- Whole stages are found again where they were joined. -/
theorem stages_join
    {first : String}
    {rest : List String}
    (hWhole : ∀ s ∈ first :: rest, Whole s.toList) :
    stages (" |> ".intercalate (first :: rest)) =
      first :: rest := by
  unfold stages
  rw [split_join hWhole, List.map_map]
  simp

-- an arrow in a literal or in parentheses parts nothing
example :
    stages "a(x: (b |> c)) |> d(e: \" |> \\\" |> \")" =
      ["a(x: (b |> c))", "d(e: \" |> \\\" |> \")"] := by
  decide

------------------------------------------------------------
-- Closed Texts
------------------------------------------------------------

/-
  A text that closes the literals and parentheses it opens, and
  no others.  It is meant to stand in parentheses.
-/
structure Closed (cs : List Char) : Prop where
  after : ∀ depth,
    (Place.code (depth + 1)).after cs = .code (depth + 1)
  tight : ∀ depth, Tight (.code (depth + 1)) cs

theorem closed_nil :
    Closed [] :=
  ⟨fun _ => rfl, fun _ => trivial⟩

/- Closed texts in a row are closed. -/
theorem Closed.append
    {cs ds : List Char}
    (hFirst : Closed cs)
    (hSecond : Closed ds) :
    Closed (cs ++ ds) where
  after := by
    intro depth
    rw [Place.after_append, hFirst.after, hSecond.after]
  tight := by
    intro depth
    rw [tight_append, hFirst.after]
    exact ⟨hFirst.tight depth, hSecond.tight depth⟩

/- Neither a quote nor a parenthesis. -/
def isPlain (c : Char) : Bool :=
  c != '\x22' && c != '(' && c != ')'

/- A plain character does not change the place. -/
theorem next_of_isPlain
    {c : Char}
    (hPlain : isPlain c = true)
    (depth : Nat) :
    (Place.code depth).next c = .code depth := by
  simp only [isPlain, Bool.and_eq_true, bne_iff_ne] at hPlain
  rcases hPlain with ⟨⟨hQuote, hOpen⟩, hClose⟩
  simp only [Place.next, hQuote, hOpen, hClose, if_false]

/- So a plain text is closed. -/
theorem closed_of_isPlain
    {cs : List Char}
    (hPlain : cs.all isPlain = true) :
    Closed cs := by
  induction cs with
  | nil => exact closed_nil
  | cons c cs ih =>
      simp only [List.all_cons, Bool.and_eq_true] at hPlain
      have hRest := ih hPlain.2
      have hNext := next_of_isPlain hPlain.1
      constructor
      · intro depth
        rw [Place.after_cons, hNext, hRest.after]
      · intro depth
        apply tight_cons (code_succ_ne depth)
        rw [hNext]
        exact hRest.tight depth

/- A text in parentheses is closed if the text is. -/
theorem closed_paren
    {cs : List Char}
    (hClosed : Closed cs) :
    Closed ('(' :: (cs ++ [')'])) where
  after := by
    intro depth
    rw [Place.after_cons, Place.after_append]
    change ((Place.code (depth + 1 + 1)).after cs).after _ = _
    rw [hClosed.after]
    rfl
  tight := by
    intro depth
    apply tight_cons (code_succ_ne depth)
    change Tight (.code (depth + 1 + 1)) (cs ++ [')'])
    rw [tight_append, hClosed.after]
    exact ⟨hClosed.tight _, tight_cons (code_succ_ne _) trivial⟩

/- A name with closed arguments is a stage of its own. -/
theorem whole_call
    {name cs : List Char}
    (hName : name.all (fun c => isPlain c && c != ' ') = true)
    (hClosed : Closed cs) :
    Whole (name ++ '(' :: (cs ++ [')'])) := by
  induction name with
  | nil =>
      constructor
      · refine ⟨fun _ => by decide, ?_⟩
        change Tight (.code (0 + 1)) (cs ++ [')'])
        rw [tight_append, hClosed.after]
        exact ⟨hClosed.tight 0, tight_cons (code_succ_ne 0) trivial⟩
      · change (Place.code 1).after (cs ++ [')']) = .code 0
        rw [Place.after_append, hClosed.after]
        rfl
  | cons c name ih =>
      simp only [List.all_cons, Bool.and_eq_true,
        bne_iff_ne] at hName
      have hNext := next_of_isPlain hName.1.1 0
      have hRest := ih (by simpa using hName.2)
      constructor
      · refine ⟨fun _ => hName.1.2, ?_⟩
        rw [hNext]
        exact hRest.tight
      · rw [List.cons_append, Place.after_cons, hNext]
        exact hRest.after

------------------------------------------------------------
-- Literals
------------------------------------------------------------

theorem quoted_ne
    (depth : Nat) :
    Place.quoted depth ≠ .code 0 := by
  intro hSame
  cases hSame

theorem escaped_ne
    (depth : Nat) :
    Place.escaped depth ≠ .code 0 := by
  intro hSame
  cases hSame

/- Behind a backslash every character is passed over. -/
theorem escaped_pair
    {depth : Nat}
    {c : Char}
    {cs : List Char}
    (hRest : (Place.quoted depth).after cs = .quoted depth ∧
      Tight (.quoted depth) cs) :
    (Place.quoted depth).after ('\x5c' :: c :: cs) =
        .quoted depth ∧
      Tight (.quoted depth) ('\x5c' :: c :: cs) :=
  ⟨hRest.1, tight_cons (quoted_ne depth)
    (tight_cons (escaped_ne depth) hRest.2)⟩

/- Within quotes nothing is code, not even a separator. -/
theorem plain_quoted
    {depth : Nat}
    {c : Char}
    {cs : List Char}
    (hBackslash : c ≠ '\x5c')
    (hQuote : c ≠ '\x22')
    (hRest : (Place.quoted depth).after cs = .quoted depth ∧
      Tight (.quoted depth) cs) :
    (Place.quoted depth).after (c :: cs) = .quoted depth ∧
      Tight (.quoted depth) (c :: cs) := by
  have hNext : (Place.quoted depth).next c =
      .quoted depth := by
    simp only [Place.next, hBackslash, hQuote, if_false]
  refine ⟨?_, tight_cons (quoted_ne depth) ?_⟩
  · rw [Place.after_cons, hNext]
    exact hRest.1
  · rw [hNext]
    exact hRest.2

/- An escaped text does not leave its literal. -/
theorem escape_quoted
    (depth : Nat)
    (cs : List Char) :
    (Place.quoted depth).after (Flux.escape cs) =
        .quoted depth ∧
      Tight (.quoted depth) (Flux.escape cs) := by
  fun_induction Flux.escape cs with
  | case1 => exact ⟨rfl, trivial⟩
  | case2 cs ih => exact escaped_pair ih
  | case3 cs ih => exact escaped_pair ih
  | case4 cs ih => exact escaped_pair ih
  | case5 cs ih => exact escaped_pair ih
  | case6 cs ih => exact escaped_pair ih
  | case7 cs ih =>
      -- the brace stays, behind an escaped dollar sign
      exact escaped_pair
        (plain_quoted (by decide) (by decide) ih)
  | case8 c cs hBackslash hQuote _ _ _ _ ih =>
      exact plain_quoted hBackslash hQuote ih

/- A string literal is closed, whatever the string is. -/
theorem closed_quote
    (s : String) :
    Closed (Flux.quote s).toList := by
  rw [Lexeme.toList_quote]
  constructor
  · intro depth
    have hEscape := escape_quoted (depth + 1) s.toList
    rw [Place.after_cons, Place.after_append]
    change ((Place.quoted (depth + 1)).after _).after _ = _
    rw [hEscape.1]
    rfl
  · intro depth
    have hEscape := escape_quoted (depth + 1) s.toList
    apply tight_cons (code_succ_ne depth)
    change Tight (.quoted (depth + 1)) _
    rw [tight_append, hEscape.1]
    exact ⟨hEscape.2, tight_cons (quoted_ne _) trivial⟩

/- Closed texts may be joined. -/
theorem closed_join
    {separator : String}
    {texts : List String}
    (hSeparator : Closed separator.toList)
    (hTexts : ∀ s ∈ texts, Closed s.toList) :
    Closed (separator.intercalate texts).toList := by
  cases texts with
  | nil => exact closed_nil
  | cons first rest =>
      induction rest generalizing first with
      | nil => exact hTexts first List.mem_cons_self
      | cons second rest ih =>
          have hRest := ih second fun s hMem =>
            hTexts s (List.mem_cons_of_mem _ hMem)
          rw [String.intercalate_cons_cons, String.toList_append,
            String.toList_append]
          exact ((hTexts first List.mem_cons_self).append
            hSeparator).append hRest

end Scan

end TypedFlux
