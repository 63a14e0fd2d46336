import TypedFlux.Proofs.Draft.Acceptance
import TypedFlux.Proofs.Flux.Terms

/-
  What the text of a part tells.

  Some parts are written alike: the two forms of a connective,
  a bound and the comparison of the time with it, a cell found
  by a key and one found by its column, and columns of different
  roles.  A normal form forgets these differences.  No others
  are lost in the text, whatever columns and keys are called.

  Key definitions include:
    * `Flux.Term.text`
    * `Part.normal?`
    * `Part.Tells`

  Key theorems include:
    * `Part.Tells.comparison`, `Part.Tells.call`
    * `Expr.Visits.tells`
    * `Expr.visit_text_eq_iff`
-/

------------------------------------------------------------
-- Normal Forms
------------------------------------------------------------

namespace TypedFlux

mutual

/- The text of a term. -/
def Flux.Term.text : Flux.Term → String
  | .name x => x
  | .cell column => Part.accessor column
  | .operation op left right =>
      Part.operation left.text (op.token?.getD "") right.text
  | .call function args =>
      function.fluxName ++ "("
        ++ ", ".intercalate (List.zipWith Flux.argument
          function.parameters (Flux.Term.texts args))
        ++ ")"

/- The texts of a list of terms. -/
def Flux.Term.texts : List Flux.Term → List String
  | [] => []
  | t :: rest => t.text :: Flux.Term.texts rest

end

mutual

/-
  The normal form of a part.  It has one form of each
  connective, cells without their roles, and the time in place
  of the absent side of a bound.
-/
def Part.normal? : Part → Option Flux.Term
  | .literal x => some (.name x)
  | .column _ name => some (.cell name)
  | .indexed _ accessor => (Part.cell? accessor).map .cell
  | .binary op left right => do
      let l ← left.normal?
      let r ← right.normal?
      return .operation (Flux.plain op) l r
  | .call function args =>
      (Part.normals? args).map (.call function)
  | .timeBound none (some bound) op => do
      let b ← bound.normal?
      return .operation (Flux.plain op) (.cell "_time") b
  | .timeBound (some bound) none op => do
      let b ← bound.normal?
      return .operation (Flux.plain op) b (.cell "_time")
  | .timeBound _ _ _ | .blank => none

/- The normal forms of a list of parts. -/
def Part.normals? : List Part → Option (List Flux.Term)
  | [] => some []
  | part :: rest => do
      let t ← part.normal?
      let ts ← Part.normals? rest
      return t :: ts

end

/- A part is written as its normal form, and read as that. -/
structure Part.Tells
    (p : Part)
    (t : Flux.Term) : Prop where
  normal : p.normal? = some t
  text : p.HasText t.text
  reads : Flux.Reads t.text t

end TypedFlux

------------------------------------------------------------
-- Parts Tell their Normal Forms
------------------------------------------------------------

namespace TypedFlux

namespace Part

/- Every kind of part tells its term. -/
theorem tells_literal
    (n : Nat) :
    Tells (.literal (Variables.nameAfter n))
      (.name (Variables.nameAfter n)) where
  normal := rfl
  text := rfl
  reads := Flux.reads_name n

theorem tells_column
    (role : Role)
    (name : String) :
    Tells (.column role name) (.cell name) where
  normal := rfl
  text := rfl
  reads := Flux.reads_cell name

theorem tells_indexed
    (key : Value)
    (column : String) :
    Tells (.indexed key (accessor column)) (.cell column) where
  normal := by rw [normal?, cell?_accessor, Option.map_some]
  text := rfl
  reads := Flux.reads_cell column

/- An operation tells that of its operands. -/
theorem Tells.binary
    {op : BinaryOp}
    {p q : Part}
    {l r : Flux.Term}
    (hToken : op.token? ≠ none)
    (hLeft : p.Tells l)
    (hRight : q.Tells r) :
    Tells (.binary op p q)
      (.operation (Flux.plain op) l r) where
  normal := by
    rw [normal?, hLeft.normal, hRight.normal]
    rfl
  text := by
    rw [Flux.Term.text, (Flux.plain_mem_operators hToken).2]
    exact .binary hToken hLeft.text hRight.text
  reads := by
    rw [Flux.Term.text, (Flux.plain_mem_operators hToken).2]
    exact Flux.reads_operation hToken hLeft.reads hRight.reads

/- A bound tells the comparison that it stands for. -/
theorem Tells.comparison
    {op : BinaryOp}
    {p q : Part}
    {l r : Flux.Term}
    (hToken : op.token? ≠ none)
    (hTimeLeft : p.isTimeColumn = true →
      p = .column .timestamp "_time")
    (hTimeRight : q.isTimeColumn = true →
      q = .column .timestamp "_time")
    (hLeft : p.Tells l)
    (hRight : q.Tells r) :
    Tells (Part.comparison op p q)
      (.operation (Flux.plain op) l r) := by
  have hBinary := hLeft.binary hToken hRight
  refine ⟨?_, hBinary.text.comparison hTimeLeft hTimeRight,
    hBinary.reads⟩
  rw [← hBinary.normal]
  unfold Part.comparison
  split
  · next hBound =>
      simp only [Bool.and_eq_true] at hBound
      rw [hTimeLeft hBound.1.1]
      rfl
  · split
    · next hBound =>
        simp only [Bool.and_eq_true] at hBound
        rw [hTimeRight hBound.1.2]
        simp [normal?]
    · rfl

/- Parts in a row tell their normal forms one by one. -/
theorem tells_all
    {ps : List Part}
    {ts : List Flux.Term}
    (hTells : List.Forall₂ Tells ps ts) :
    normals? ps = some ts ∧
      ps.map Part.text = (Flux.Term.texts ts).map .ok ∧
      List.Forall₂ Flux.Reads (Flux.Term.texts ts) ts := by
  induction hTells with
  | nil => exact ⟨rfl, rfl, .nil⟩
  | cons hFirst _ ih =>
      rcases ih with ⟨hNormals, hTexts, hReads⟩
      refine ⟨?_, ?_, .cons hFirst.reads hReads⟩
      · rw [normals?, hFirst.normal, hNormals]
        rfl
      · rw [List.map_cons, hTexts, hFirst.text]
        rfl

/-
  A call tells that of its arguments, if there are as many as
  parameters.
-/
theorem Tells.call
    {ps : List Part}
    {ts : List Flux.Term}
    (function : StringFunction)
    (hTells : List.Forall₂ Tells ps ts)
    (hLength : function.parameters.length = ps.length) :
    Tells (.call function ps) (.call function ts) := by
  rcases tells_all hTells with ⟨hNormals, hTexts, hReads⟩
  have hCount : function.parameters.length =
      (Flux.Term.texts ts).length := by
    rw [hReads.length_eq, ← hTells.length_eq, hLength]
  refine ⟨?_, ?_, ?_⟩
  · rw [normal?, hNormals, Option.map_some]
  · rw [Flux.Term.text]
    exact .call function hTexts
  · rw [Flux.Term.text]
    exact Flux.reads_call function hReads hCount

end Part

------------------------------------------------------------
-- Texts of Expressions
------------------------------------------------------------

namespace Expr

variable {resolver : Resolver}

theorem VisitsAll.tells_of
    {es : List Expr}
    {ps : List Part}
    {s u : Scope}
    (hEach : ∀ e ∈ es, ∀ p s u, Visits resolver e s p u →
      ∃ t, p.Tells t)
    (hVisits : VisitsAll resolver es s ps u) :
    ps.length = es.length ∧
      ∃ ts, List.Forall₂ Part.Tells ps ts := by
  induction es generalizing s ps with
  | nil =>
      cases hVisits with
      | nil => exact ⟨rfl, [], .nil⟩
  | cons e es ih =>
      cases hVisits with
      | cons hFirst hOthers =>
          rcases hEach e List.mem_cons_self _ _ _ hFirst with
            ⟨t, hTells⟩
          rcases ih (fun e hMem => hEach e (.tail _ hMem))
            hOthers with ⟨hLength, ts, hAll⟩
          exact ⟨congrArg Nat.succ hLength, t :: ts,
            .cons hTells hAll⟩

/- Every part of an expression tells its normal form. -/
theorem Visits.tells
    {e : Expr}
    {p : Part}
    {s u : Scope}
    (hVisits : Visits resolver e s p u) :
    ∃ t, p.Tells t := by
  induction e generalizing s p u with
  | constant value =>
      cases hVisits with
      | constant => exact ⟨_, Part.tells_literal _⟩
  | member name =>
      cases hVisits with
      | member =>
          rw [Part.ofColumn_eq_cell]
          exact ⟨_, Part.tells_column _ _⟩
  | index name key =>
      cases hVisits with
      | index => exact ⟨_, Part.tells_indexed _ _⟩
  | binary op left right ihLeft ihRight =>
      cases hVisits with
      | comparison hComparison hLeft hRight =>
          rcases ihLeft hLeft with ⟨l, hLeftTells⟩
          rcases ihRight hRight with ⟨r, hRightTells⟩
          exact ⟨_, hLeftTells.comparison
            (BinaryOp.token?_of_isComparison hComparison)
            hLeft.eq_of_isTimeColumn hRight.eq_of_isTimeColumn
            hRightTells⟩
      | connective _ hToken hLeft hRight =>
          rcases ihLeft hLeft with ⟨l, hLeftTells⟩
          rcases ihRight hRight with ⟨r, hRightTells⟩
          exact ⟨_, hLeftTells.binary hToken hRightTells⟩
  | unary op operand ih =>
      cases hVisits with
      | convert hOperand => exact ih hOperand
  | call receiver method args ihReceiver ihArgs =>
      cases hVisits with
      | call hFunction hReceiver hArgs =>
          rcases ihReceiver hReceiver with ⟨t, hTells⟩
          rcases hArgs.tells_of
            (fun arg hMem p s u => ihArgs arg hMem) with
            ⟨hLength, ts, hAll⟩
          refine ⟨_, Part.Tells.call _ (.cons hTells hAll) ?_⟩
          rw [List.length_cons, hLength]
          exact (function?_eq_some.mp hFunction).2
  | parameter name => cases hVisits
  | conditional test ifTrue ifFalse _ _ _ => cases hVisits

/-
  Parts of any expressions have the same text exactly if they
  have the same normal form.
-/
theorem visit_text_eq_iff
    (resolver resolver' : Resolver)
    (e e' : Expr)
    (s s' u u' : Scope)
    (p p' : Part)
    (hVisit : e.visit resolver s = (.ok p, u))
    (hOther : e'.visit resolver' s' = (.ok p', u')) :
    ∃ t t', p.normal? = some t ∧ p'.normal? = some t' ∧
      p.text = .ok t.text ∧ p'.text = .ok t'.text ∧
      (p.text = p'.text ↔ t = t') := by
  rcases (visits_of_visit hVisit).tells with ⟨t, hTells⟩
  rcases (visits_of_visit hOther).tells with ⟨t', hTells'⟩
  refine ⟨t, t', hTells.normal, hTells'.normal, hTells.text,
    hTells'.text, ?_, ?_⟩
  · intro hSame
    have hTexts : t.text = t'.text :=
      Except.ok.inj
        ((hTells.text.symm.trans hSame).trans hTells'.text)
    -- one text, read twice
    have hRead := hTells.reads _ [] (Nat.le_refl _)
      (Lexeme.avoids_nil _)
    have hRead' := hTells'.reads _ [] (Nat.le_refl _)
      (Lexeme.avoids_nil _)
    rw [hTexts, hRead'] at hRead
    exact (Reply.ok.inj hRead).1.symm
  · rintro rfl
    exact hTells.text.trans hTells'.text.symm

/- A bound of the range, and cells of members. -/
def boundedExpr : Expr :=
  .binary .andAlso
    (.binary .equal (.member "at") (.constant (.int 5)))
    (.binary .orElse
      (.call (.member "site_a") "Contains"
        [.constant (.string "\"]")])
      (.binary .lessThan (.unary .convert (.member "at"))
        (.member "level")))

/- The same text from keys and other connectives. -/
def indexedExpr : Expr :=
  .binary .and
    (.binary .equal (.index "" (.string "time"))
      (.constant (.bool true)))
    (.binary .or
      (.call (.index "site" (.string "a")) "contains"
        [.constant (.int 0)])
      (.binary .lessThan (.member "at") (.member "level")))

/- Two parts that differ and have one text. -/
theorem visit_text_eq_iff_boundedExpr :
    ∃ p u p' u',
      boundedExpr.visit deviceResolver {} = (.ok p, u) ∧
      indexedExpr.visit deviceResolver {} =
        (.ok p', u') ∧
      p.text = p'.text ∧ p ≠ p' ∧ ∃ t,
        p.normal? = some t ∧ p'.normal? = some t := by
  rcases (⟨_, _, rfl⟩ : ∃ p u, boundedExpr.visit
    deviceResolver {} = (.ok p, u)) with ⟨p, u, hVisit⟩
  rcases (⟨_, _, rfl⟩ : ∃ p u, indexedExpr.visit
    deviceResolver {} = (.ok p, u)) with ⟨p', u', hOther⟩
  have hText : p.text = p'.text := by
    cases hVisit
    cases hOther
    rfl
  have hNe : p ≠ p' := by
    cases hVisit
    cases hOther
    nofun
  rcases visit_text_eq_iff _ _ _ _ _ _ _ _ _ _ hVisit hOther with
    ⟨t, t', hNormal, hNormal', _, _, hIff⟩
  refine ⟨p, u, p', u', hVisit, hOther, hText, hNe, t, hNormal,
    ?_⟩
  rw [hIff.mp hText, hNormal']

end Expr

end TypedFlux
