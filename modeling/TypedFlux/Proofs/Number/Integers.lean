import TypedFlux.Proofs.Syntax.Lexemes

/-
  Integers and their numerals.

  A numeral has a sign or none, and digits.  Every integer is
  read back from its own numeral: as a machine integer if it
  fits, and as a floating point number in any case.

  Key definitions include:
    * `Numeral.Denotes`
    * `Numeral.Holds`

  Key theorems include:
    * `Numeral.toInt64?_eq_some`, `Numeral.toInt64?_eq_none`
    * `Numeral.int?_eq_some`
    * `Numeral.int64?_trim`
    * `Numeral.denotes_ofInt`, `Numeral.int64?_ofInt`
    * `Numeral.binary64?_ofNat`
-/

------------------------------------------------------------
-- The Signed Range
------------------------------------------------------------

namespace TypedFlux

namespace Numeral

/- A number is kept as it is, or not at all. -/
theorem toInt64?_eq_some
    {n : Int}
    {k : Int64} :
    toInt64? n = some k ↔ k.toInt = n := by
  have hLow := k.le_toInt
  have hHigh := k.toInt_lt
  unfold toInt64?
  split
  · next hFits =>
      have hSame : (Int64.ofInt n).toInt = n :=
        Int64.toInt_ofInt_of_le hFits.1
          (Int.lt_add_one_of_le hFits.2)
      rw [Option.some.injEq, ← Int64.toInt_inj, hSame]
      exact eq_comm
  · next hPast =>
      constructor
      · rintro ⟨⟩
      · intro hSame
        omega

/- It is not kept if it is out of bounds. -/
theorem toInt64?_eq_none
    {n : Int} :
    toInt64? n = none ↔
      n < -0x8000000000000000 ∨ 0x7fffffffffffffff < n := by
  unfold toInt64?
  split
  · next hFits =>
      simp only [reduceCtorEq, false_iff]
      omega
  · next hPast =>
      simp only [true_iff]
      omega

end Numeral

end TypedFlux

------------------------------------------------------------
-- Numerals
------------------------------------------------------------

namespace TypedFlux

namespace Numeral

/- The integer of a sign or none, and digits. -/
inductive Denotes : List Char → Int → Prop
  | plain
      {ds : List Char}
      (hDigits : IsDigits ds) :
      Denotes ds (ofDigits ds)
  | plus
      {ds : List Char}
      (hDigits : IsDigits ds) :
      Denotes ('+' :: ds) (ofDigits ds)
  | minus
      {ds : List Char}
      (hDigits : IsDigits ds) :
      Denotes ('-' :: ds) (-(ofDigits ds : Int))

/- Natural numbers are read from digits only. -/
theorem nat?_eq_some
    {cs : List Char}
    {n : Nat} :
    nat? cs = some n ↔ IsDigits cs ∧ ofDigits cs = n := by
  unfold nat? IsDigits
  split
  · next hOther =>
      simp only [Bool.or_eq_true, List.isEmpty_iff,
        Bool.not_eq_true', List.all_eq_false] at hOther
      simp only [reduceCtorEq, false_iff]
      rintro ⟨⟨hNonempty, hDigits⟩, _⟩
      rcases hOther with hEmpty | ⟨c, hMem, hOther⟩
      · exact hNonempty hEmpty
      · exact hOther (hDigits c hMem)
  · next hDigits =>
      simp only [Bool.or_eq_true, List.isEmpty_iff,
        Bool.not_eq_true', not_or, Bool.not_eq_false,
        List.all_eq_true] at hDigits
      rw [Option.some.injEq]
      exact ⟨fun hValue => ⟨hDigits, hValue⟩, And.right⟩

/- Without a sign, all characters belong to the number. -/
theorem splitSign_of_ne
    {c : Char}
    (hMinus : c ≠ '-')
    (hPlus : c ≠ '+')
    (cs : List Char) :
    splitSign (c :: cs) = (false, c :: cs) := by
  unfold splitSign
  split
  · next hHead => exact absurd (List.cons.inj hHead).1 hMinus
  · next hHead => exact absurd (List.cons.inj hHead).1 hPlus
  · rfl

theorem splitSign_of_digits
    {ds : List Char}
    (hDigits : IsDigits ds) :
    splitSign ds = (false, ds) := by
  rcases hDigits with ⟨hNonempty, hDigits⟩
  cases ds with
  | nil => exact absurd rfl hNonempty
  | cons c cs =>
      have hDigit := hDigits c List.mem_cons_self
      apply splitSign_of_ne
      · rintro rfl
        exact absurd hDigit (by decide)
      · rintro rfl
        exact absurd hDigit (by decide)

/- An integer, by its sign and its digits. -/
theorem int?_of_splitSign
    {cs body : List Char}
    {negative : Bool}
    (hSplit : splitSign cs = (negative, body)) :
    int? cs = (nat? body).map fun (n : Nat) =>
      if negative then -(n : Int) else (n : Int) := by
  cases hBody : nat? body with
  | none => simp [int?, hSplit, hBody]
  | some n => simp [int?, hSplit, hBody]

/- Exactly the numerals are read. -/
theorem int?_eq_some
    {cs : List Char}
    {n : Int} :
    int? cs = some n ↔ Denotes cs n := by
  constructor
  · intro hRead
    rcases hSplit : splitSign cs with ⟨negative, body⟩
    rw [int?_of_splitSign hSplit, Option.map_eq_some_iff]
      at hRead
    rcases hRead with ⟨m, hBody, rfl⟩
    rcases nat?_eq_some.mp hBody with ⟨hDigits, rfl⟩
    revert hSplit
    fun_cases splitSign cs with
    | case1 ds =>
        rintro ⟨⟩
        exact .minus hDigits
    | case2 ds =>
        rintro ⟨⟩
        exact .plus hDigits
    | case3 =>
        rintro ⟨⟩
        exact .plain hDigits
  · intro hDenotes
    cases hDenotes with
    | plain hDigits =>
        rw [int?_of_splitSign (splitSign_of_digits hDigits),
          nat?_eq_some.mpr ⟨hDigits, rfl⟩]
        rfl
    | plus hDigits =>
        rw [int?_of_splitSign (by rfl),
          nat?_eq_some.mpr ⟨hDigits, rfl⟩]
        rfl
    | minus hDigits =>
        rw [int?_of_splitSign (by rfl),
          nat?_eq_some.mpr ⟨hDigits, rfl⟩]
        rfl

end Numeral

end TypedFlux

------------------------------------------------------------
-- Numerals between Blanks
------------------------------------------------------------

namespace TypedFlux

namespace Text

open Lexeme

theorem toNat_of_isNameChar
    {c : Char}
    (hName : isNameChar c = true) :
    48 ≤ c.toNat ∧ c.toNat ≤ 122 := by
  have hWithin : ∀ low high : Char,
      48 ≤ low.toNat → high.toNat ≤ 122 →
        c.val ≥ low.val ∧ c.val ≤ high.val →
          48 ≤ c.toNat ∧ c.toNat ≤ 122 := by
    intro low high hLow hHigh hRange
    have hAbove := UInt32.le_iff_toNat_le.mp hRange.1
    have hBelow := UInt32.le_iff_toNat_le.mp hRange.2
    exact ⟨Nat.le_trans hLow hAbove, Nat.le_trans hBelow hHigh⟩
  change (((decide (_ ∧ _) || (decide _ && decide _))
    || (decide _ && decide _)) || _) = true at hName
  simp only [Bool.or_eq_true, Bool.and_eq_true,
    decide_eq_true_eq, beq_iff_eq] at hName
  rcases hName with ((hUpper | hLower) | hDigit) | rfl
  · exact hWithin 'A' 'Z' (by decide) (by decide) hUpper
  · exact hWithin 'a' 'z' (by decide) (by decide) hLower
  · exact hWithin '0' '9' (by decide) (by decide) hDigit
  · decide

/- No character of a name is blank. -/
theorem isBlank_of_isNameChar
    {c : Char}
    (hName : isNameChar c = true) :
    isBlank c = false := by
  have hRange := toNat_of_isNameChar hName
  simp only [isBlank, Bool.or_eq_false_iff,
    Bool.and_eq_false_iff, decide_eq_false_iff_not,
    beq_eq_false_iff_ne]
  omega

/- Trimming takes blanks off both ends. -/
theorem exists_trimChars
    (cs : List Char) :
    ∃ before after : List Char,
      (∀ c ∈ before, isBlank c = true) ∧
      (∀ c ∈ after, isBlank c = true) ∧
      cs = before ++ (trimChars cs ++ after) := by
  refine ⟨cs.takeWhile isBlank,
    ((cs.dropWhile isBlank).reverse.takeWhile isBlank).reverse,
    ?_, ?_, ?_⟩
  · exact List.all_eq_true.mp List.all_takeWhile
  · intro c hMem
    exact List.all_eq_true.mp List.all_takeWhile c
      (List.mem_reverse.mp hMem)
  · rw [trimChars, trimEndChars, ← List.reverse_append,
      List.takeWhile_append_dropWhile, List.reverse_reverse,
      List.takeWhile_append_dropWhile]

/- Nothing but blanks is taken off. -/
theorem trimChars_blanks
    {before cs after : List Char}
    (hBefore : ∀ c ∈ before, isBlank c = true)
    (hAfter : ∀ c ∈ after, isBlank c = true)
    (hNonempty : cs ≠ [])
    (hFirst : Avoids isBlank cs)
    (hLast : Avoids isBlank cs.reverse) :
    trimChars (before ++ (cs ++ after)) = cs := by
  have hStart : Avoids isBlank (cs ++ after) := by
    cases cs with
    | nil => exact absurd rfl hNonempty
    | cons c cs => exact hFirst
  have hBlanks : ∀ c ∈ after.reverse, isBlank c = true :=
    fun c hMem => hAfter c (List.mem_reverse.mp hMem)
  rw [trimChars, dropWhile_run hBefore hStart, trimEndChars,
    List.reverse_append, dropWhile_run hBlanks hLast,
    List.reverse_reverse]

end Text

namespace Numeral

open Lexeme

/- Digits are not trimmed. -/
theorem isBlank_of_isDigit
    {c : Char}
    (hDigit : c.isDigit = true) :
    Text.isBlank c = false :=
  Text.isBlank_of_isNameChar (isNameChar_of_isDigit hDigit)

/- No character of a numeral is blank. -/
theorem Denotes.isBlank_eq_false
    {cs : List Char}
    {n : Int}
    (hDenotes : Denotes cs n) :
    cs ≠ [] ∧ ∀ c ∈ cs, Text.isBlank c = false := by
  cases hDenotes with
  | plain hDigits =>
      exact ⟨hDigits.1, fun c hMem =>
        isBlank_of_isDigit (hDigits.2 c hMem)⟩
  | plus hDigits | minus hDigits =>
      refine ⟨List.cons_ne_nil _ _, ?_⟩
      rw [List.forall_mem_cons]
      exact ⟨rfl, fun c hMem =>
        isBlank_of_isDigit (hDigits.2 c hMem)⟩

/- A text holds a numeral, with nothing around it but blanks. -/
def Holds
    (s : String)
    (n : Int) : Prop :=
  ∃ before numeral after : List Char,
    s.toList = before ++ (numeral ++ after) ∧
    (∀ c ∈ before, Text.isBlank c = true) ∧
    (∀ c ∈ after, Text.isBlank c = true) ∧
    Denotes numeral n

/- Blanks around an integer do not count. -/
theorem int?_trim
    {s : String}
    {n : Int} :
    int? (Text.trim s).toList = some n ↔ Holds s n := by
  rw [Text.trim, String.toList_ofList, int?_eq_some]
  constructor
  · intro hDenotes
    rcases Text.exists_trimChars s.toList with
      ⟨before, after, hBefore, hAfter, hText⟩
    exact ⟨before, _, after, hText, hBefore, hAfter, hDenotes⟩
  · rintro ⟨before, numeral, after, hText, hBefore, hAfter,
      hDenotes⟩
    rcases hDenotes.isBlank_eq_false with ⟨hNonempty, hNone⟩
    rw [hText, Text.trimChars_blanks hBefore hAfter hNonempty]
    · exact hDenotes
    · intro c hHead
      exact hNone c (List.mem_of_mem_head? hHead)
    · intro c hHead
      exact hNone c
        (List.mem_reverse.mp (List.mem_of_mem_head? hHead))

/- A machine integer is read from the texts that hold it. -/
theorem int64?_trim
    {s : String}
    {k : Int64} :
    int64? (Text.trim s) = some k ↔ Holds s k.toInt := by
  unfold int64?
  rw [Option.bind_eq_some_iff]
  constructor
  · rintro ⟨n, hRead, hFits⟩
    rw [toInt64?_eq_some.mp hFits]
    exact int?_trim.mp hRead
  · intro hHolds
    exact ⟨_, int?_trim.mpr hHolds, toInt64?_eq_some.mpr rfl⟩

end Numeral

end TypedFlux

------------------------------------------------------------
-- Integers Read Back
------------------------------------------------------------

namespace TypedFlux

namespace Numeral

open Lexeme

/- A negative number has a sign in front. -/
theorem ofInt_of_neg
    {n : Int}
    (hNegative : n < 0) :
    (ofInt n).toList = '-' :: (ofNat n.natAbs).toList := by
  rw [ofInt, if_pos hNegative, String.toList_append]
  rfl

/- The numeral of an integer denotes it. -/
theorem denotes_ofInt
    (n : Int) :
    Denotes (ofInt n).toList n := by
  have hDigits := isDigits_ofNat n.natAbs
  by_cases hNegative : n < 0
  · have hValue : -(n.natAbs : Int) = n := by omega
    have hMinus := Denotes.minus hDigits
    rw [ofDigits_ofNat, hValue] at hMinus
    rw [ofInt_of_neg hNegative]
    exact hMinus
  · have hValue : (n.natAbs : Int) = n := by omega
    have hPlain := Denotes.plain hDigits
    rw [ofDigits_ofNat, hValue] at hPlain
    rw [ofInt, if_neg hNegative]
    exact hPlain

/- An integer that is printed is read back if it fits. -/
theorem int64?_ofInt
    (n : Int) :
    int64? (ofInt n) = toInt64? n := by
  rw [int64?, int?_eq_some.mpr (denotes_ofInt n)]
  rfl

/- Digits are a decimal without a fraction. -/
theorem decimal?_of_digits
    {ds : List Char}
    (hDigits : IsDigits ds) :
    decimal? ds = some ⟨ofDigits ds, 0⟩ := by
  have hTake : ds.takeWhile Char.isDigit = ds := by
    simpa using takeWhile_run hDigits.2 (avoids_nil _)
  have hDrop : ds.dropWhile Char.isDigit = [] := by
    simpa using dropWhile_run hDigits.2 (avoids_nil _)
  simp [decimal?, hTake, hDrop, hDigits.1, exponent?]

/- A whole number far from the largest is rounded as it is. -/
theorem round_whole
    {n : Nat}
    (hBound : n ≤ 0xffffffffffffffff) :
    round false ⟨n, 0⟩ = Binary64.ofInt n := by
  have hLength : (Nat.toDigits 10 n).length ≤ 20 :=
    (Nat.length_toDigits_le_iff (by decide) (by decide)).mpr
      (by omega)
  have hOrder : (Decimal.mk n 0).order ≤ 310 ∧
      -1 ≤ (Decimal.mk n 0).order := by
    simp only [Decimal.order, Decimal.digits]
    omega
  have hNear : ¬ (Decimal.mk n 0).order < -330 := by omega
  have hFinite : ¬ 310 < (Decimal.mk n 0).order := by omega
  have hSign : ¬ (n : Int) < 0 := by omega
  by_cases hZero : n = 0
  · subst hZero
    rfl
  · simp [round, Binary64.ofInt, hZero, hNear, hFinite, hSign]

/- A digit is no capital letter. -/
theorem toLower_of_isDigit
    {c : Char}
    (hDigit : c.isDigit = true) :
    c.toLower = c := by
  have hRange := Char.isDigit_iff_toNat.mp hDigit
  have hApart : '9'.toNat < 'A'.toNat := by decide
  have hOther : ¬ (c.val ≥ 'A'.val ∧ c.val ≤ 'Z'.val) := by
    rintro ⟨hLetter, _⟩
    have hLarge : 'A'.toNat ≤ c.toNat :=
      UInt32.le_iff_toNat_le.mp hLetter
    omega
  unfold Char.toLower
  rw [dif_neg hOther]

/- A whole number is read as the nearest floating point number. -/
theorem binary64?_ofNat
    {n : Nat}
    (hBound : n ≤ 0xffffffffffffffff) :
    binary64? (ofNat n) = some (Binary64.ofInt n) := by
  have hDigits := isDigits_ofNat n
  -- no name of a special number begins with a digit
  have hNameless : ∀ name : String,
      name.toList.head?.any Char.isDigit = false →
        (String.ofList ((ofNat n).toList.map Char.toLower)
          == name) = false := by
    intro name hName
    rw [beq_eq_false_iff_ne]
    rintro rfl
    rcases toList_ofNat_cons n with ⟨c, cs, hChars, hDigit⟩
    simp [hChars, toLower_of_isDigit hDigit, hDigit] at hName
  unfold binary64?
  simp only [splitSign_of_digits hDigits,
    hNameless "inf" rfl, hNameless "infinity" rfl,
    hNameless "nan" rfl, Bool.or_self, Bool.false_eq_true,
    if_false, decimal?_of_digits hDigits, ofDigits_ofNat,
    Option.map_some, round_whole hBound]

end Numeral

end TypedFlux
