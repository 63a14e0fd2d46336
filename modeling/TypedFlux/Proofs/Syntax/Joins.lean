import Mathlib.Data.List.Forall2
import TypedFlux.Proofs.Syntax.Lexemes

/-
  Joined texts, read back one by one.

  Texts are joined by a separator and read as items with that
  separator between them.  Each item is read before whatever
  may follow it: the separator, or the rest of the text.

  Key definitions include:
    * `Lexeme.ReadsBefore`

  Key theorems include:
    * `Lexeme.toList_join`
    * `Lexeme.sepBy_join`
    * `Lexeme.length_le_join`
-/

namespace TypedFlux

namespace Lexeme

open Reader

variable {α : Type}
variable {item : Reader α}
variable {Follows : List Char → Prop}
variable {separator : String}

------------------------------------------------------------
-- Joined Texts
------------------------------------------------------------

/- What comes behind the first of joined texts. -/
def joinTail
    (separator : String)
    (texts : List String) : List Char :=
  texts.flatMap fun text => separator.toList ++ text.toList

theorem joinTail_cons
    (separator text : String)
    (texts : List String) :
    joinTail separator (text :: texts) =
      separator.toList
        ++ (text.toList ++ joinTail separator texts) := by
  rw [joinTail, joinTail, List.flatMap_cons, List.append_assoc]

/- Joined texts, the first of them and the rest behind it. -/
theorem toList_join
    (separator first : String)
    (others : List String) :
    (separator.intercalate (first :: others)).toList =
      first.toList ++ joinTail separator others := by
  induction others generalizing first with
  | nil => exact (List.append_nil _).symm
  | cons next others ih =>
      rw [String.intercalate_cons_cons, String.toList_append,
        String.toList_append, ih, joinTail_cons]
      simp only [List.append_assoc]

/- None is longer than the rest. -/
theorem length_le_joinTail
    (separator : String)
    {texts : List String}
    {text : String}
    (hMem : text ∈ texts) :
    text.length ≤ (joinTail separator texts).length := by
  induction texts with
  | nil => exact absurd hMem List.not_mem_nil
  | cons first others ih =>
      rw [joinTail_cons, List.length_append, List.length_append,
        String.length_toList]
      rcases List.mem_cons.mp hMem with rfl | hMem
      · rw [String.length_toList]
        omega
      · have hOthers := ih hMem
        omega

/- No text is longer than all of them joined. -/
theorem length_le_join
    (separator : String)
    (texts : List String) :
    ∀ text ∈ texts,
      text.length ≤ (separator.intercalate texts).length := by
  intro text hMem
  cases texts with
  | nil => exact absurd hMem List.not_mem_nil
  | cons first others =>
      rw [← String.length_toList (s := String.intercalate _ _),
        toList_join, List.length_append, String.length_toList]
      rcases List.mem_cons.mp hMem with rfl | hMem
      · omega
      · have hOthers := length_le_joinTail separator hMem
        omega

------------------------------------------------------------
-- Items Read Back
------------------------------------------------------------

/- A text is read as a value before whatever may follow it. -/
def ReadsBefore
    (item : Reader α)
    (Follows : List Char → Prop)
    (text : String)
    (value : α) : Prop :=
  ∀ rest, Follows rest →
    item (text.toList ++ rest) = .ok value rest

/- What follows an item is a separator or the end. -/
theorem follows_joinTail
    {rest : List Char}
    (hBetween : ∀ s, Follows (separator.toList ++ s))
    (hRest : Follows rest)
    (texts : List String) :
    Follows (joinTail separator texts ++ rest) := by
  cases texts with
  | nil => exact hRest
  | cons text texts =>
      rw [joinTail_cons, List.append_assoc]
      exact hBetween _

/- The items behind the first one. -/
theorem sepTail_joinTail
    {texts : List String}
    {values : List α}
    {rest : List Char}
    (hSeparator : separator ≠ "")
    (hBetween : ∀ s, Follows (separator.toList ++ s))
    (hReads :
      List.Forall₂ (ReadsBefore item Follows) texts values)
    (hRest : Follows rest)
    (hEnd : (word separator).Misses rest) :
    sepTail item (word separator)
        (joinTail separator texts ++ rest) =
      .ok values rest := by
  induction hReads with
  | nil => exact sepTail_of_misses hEnd
  | @cons text value texts values hFirst hOthers ih =>
      have hItem := hFirst (joinTail separator texts ++ rest)
        (follows_joinTail hBetween hRest texts)
      have hChars : joinTail separator (text :: texts) ++ rest =
          separator.toList ++ (text.toList
            ++ (joinTail separator texts ++ rest)) := by
        rw [joinTail_cons]
        simp only [List.append_assoc]
      have hShorter : (joinTail separator texts ++ rest).length <
          (joinTail separator (text :: texts)
            ++ rest).length := by
        have hWord : 0 < separator.toList.length := by
          rw [List.length_pos_iff, ne_eq,
            String.toList_eq_nil_iff]
          exact hSeparator
        rw [hChars]
        simp only [List.length_append]
        omega
      have hWord := word_append separator (text.toList
        ++ (joinTail separator texts ++ rest))
      rw [← hChars] at hWord
      rw [sepTail_of_ok hWord hItem hShorter, ih]
      rfl

/- Joined texts are read as the values of the texts. -/
theorem sepBy_join
    {texts : List String}
    {values : List α}
    {rest : List Char}
    (hSeparator : separator ≠ "")
    (hBetween : ∀ s, Follows (separator.toList ++ s))
    (hReads :
      List.Forall₂ (ReadsBefore item Follows) texts values)
    (hRest : Follows rest)
    (hEnd : (word separator).Misses rest)
    (hNone : item.Misses rest) :
    sepBy item (word separator)
        ((separator.intercalate texts).toList ++ rest) =
      .ok values rest := by
  cases hReads with
  | nil => exact sepBy_of_misses hNone
  | @cons text value texts values hFirst hOthers =>
      have hItem := hFirst (joinTail separator texts ++ rest)
        (follows_joinTail hBetween hRest texts)
      rw [toList_join, List.append_assoc, sepBy_of_ok hItem,
        sepTail_joinTail hSeparator hBetween hOthers hRest hEnd]
      rfl

end Lexeme

end TypedFlux
