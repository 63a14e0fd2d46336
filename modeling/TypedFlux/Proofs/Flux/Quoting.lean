import TypedFlux.Flux.Part
import TypedFlux.Proofs.Syntax.Lexemes

/-
  String literals and cells, read back.

  Key definitions include:
    * `Flux.unescape`
    * `Part.cell?`
    * `Flux.scan`, `Flux.Sealed`

  Key theorems include:
    * `Flux.unescape_escape`
    * `Part.cell?_accessor`
    * `Flux.quote_sealed`
-/

namespace TypedFlux

------------------------------------------------------------
-- String Literals
------------------------------------------------------------

namespace Flux

/- The character that stands behind a backslash. -/
def unescapeChar : Char → Char
  | 'n' => '\n'
  | 'r' => '\r'
  | 't' => '\t'
  | c => c

/- The text of a literal, from what is between its quotes. -/
def unescape : List Char → List Char
  | [] => []
  | ['\x5c'] => []
  | '\x5c' :: c :: cs => unescapeChar c :: unescape cs
  | c :: cs => c :: unescape cs

theorem unescape_plain
    {c : Char}
    (hPlain : c ≠ '\x5c')
    (cs : List Char) :
    unescape (c :: cs) = c :: unescape cs := by
  rw [unescape]
  · rintro rfl
    exact absurd rfl hPlain
  · rintro d ds rfl
    exact absurd rfl hPlain

/- Every text is read back from its literal. -/
theorem unescape_escape
    (cs : List Char) :
    unescape (escape cs) = cs := by
  have hEscaped : ∀ c ds, unescape ('\x5c' :: c :: ds) =
      unescapeChar c :: unescape ds :=
    fun c ds => rfl
  fun_induction escape cs with
  | case1 => rfl
  | case2 cs ih => rw [hEscaped, ih]; rfl
  | case3 cs ih => rw [hEscaped, ih]; rfl
  | case4 cs ih => rw [hEscaped, ih]; rfl
  | case5 cs ih => rw [hEscaped, ih]; rfl
  | case6 cs ih => rw [hEscaped, ih]; rfl
  | case7 cs ih =>
      rw [hEscaped, unescape_plain (by decide), ih]
      rfl
  | case8 c cs hBackslash _ _ _ _ _ ih =>
      rw [unescape_plain hBackslash, ih]

end Flux

------------------------------------------------------------
-- Cells
------------------------------------------------------------

namespace Part

/- The column of a cell, from the text of the cell. -/
def cell? (text : String) : Option String :=
  match text.toList with
  | 'r' :: '[' :: '\x22' :: cs =>
      if cs.drop (cs.length - 2) = ['\x22', ']'] then
        some (String.ofList
          (Flux.unescape (cs.take (cs.length - 2))))
      else none
  | _ => none

/- Every column is read back from its cell. -/
theorem cell?_accessor
    (column : String) :
    cell? (accessor column) = some column := by
  have hChars : (accessor column).toList =
      'r' :: '[' :: '\x22' :: (Flux.escape column.toList
        ++ ['\x22', ']']) := by
    simp [accessor, Lexeme.toList_quote]
  unfold cell?
  rw [hChars]
  simp [Flux.unescape_escape]

end Part

------------------------------------------------------------
-- Escapes
------------------------------------------------------------

namespace Flux

/-
  The characters of a text from left to right, each with
  whether it is escaped.  A backslash that is not escaped
  itself escapes the character behind it.
-/
def scan (escaped : Bool) : List Char → List (Char × Bool)
  | [] => []
  | c :: cs =>
      (c, escaped) :: scan (!escaped && c == '\x5c') cs

/-
  A literal ends where it should and stays on its line, and
  nothing in it is evaluated.
-/
structure Sealed (literal : List Char) : Prop where
  quotes : ∀ i,
    (scan false literal)[i]? = some ('\x22', false) ↔
      i = 0 ∨ i + 1 = literal.length
  lineFeed : '\n' ∉ literal
  carriageReturn : '\r' ∉ literal
  tab : '\t' ∉ literal
  interpolation : ∀ i,
    (scan false literal)[i]? = some ('$', false) →
      literal[i + 1]? ≠ some '\x7b'

@[simp] theorem length_scan
    (escaped : Bool)
    (cs : List Char) :
    (scan escaped cs).length = cs.length := by
  induction cs generalizing escaped with
  | nil => rfl
  | cons c cs ih => simp [scan, ih]

theorem scan_plain
    {c : Char}
    (hPlain : c ≠ '\x5c')
    (cs : List Char) :
    scan false (c :: cs) = (c, false) :: scan false cs := by
  simp [scan, beq_eq_false_iff_ne.mpr hPlain]

/- An escape is over behind the escaped character. -/
theorem scan_escaped
    (c : Char)
    (cs : List Char) :
    scan false ('\x5c' :: c :: cs) =
      ('\x5c', false) :: (c, true) :: scan false cs := by
  simp [scan]

/- No escape of a text reaches over its end. -/
theorem scan_escape_append
    (cs rest : List Char) :
    scan false (escape cs ++ rest) =
      scan false (escape cs) ++ scan false rest := by
  fun_induction escape cs with
  | case1 => rfl
  | case2 cs ih | case3 cs ih | case4 cs ih | case5 cs ih
  | case6 cs ih =>
      simp [scan_escaped, ih]
  | case7 cs ih =>
      have hBrace : '\x7b' ≠ '\x5c' := by decide
      simp [scan_escaped, scan_plain hBrace, ih]
  | case8 c cs hBackslash _ _ _ _ _ ih =>
      simp [scan_plain hBackslash, ih]

theorem scan_quote
    (s : String) :
    scan false (quote s).toList =
      ('\x22', false) :: (scan false (escape s.toList)
        ++ [('\x22', false)]) := by
  have hQuote : '\x22' ≠ '\x5c' := by decide
  rw [Lexeme.toList_quote, scan_plain hQuote,
    scan_escape_append, scan_plain hQuote]
  rfl

/- Every quote of a text is escaped. -/
theorem quote_notMem_scan_escape
    (cs : List Char) :
    ('\x22', false) ∉ scan false (escape cs) := by
  fun_induction escape cs with
  | case1 => exact List.not_mem_nil
  | case2 cs ih | case3 cs ih | case4 cs ih | case5 cs ih
  | case6 cs ih =>
      simpa [scan_escaped] using ih
  | case7 cs ih =>
      have hBrace : '\x7b' ≠ '\x5c' := by decide
      simpa [scan_escaped, scan_plain hBrace] using ih
  | case8 c cs hBackslash hQuote _ _ _ _ ih =>
      simpa [scan_plain hBackslash, eq_comm] using ⟨hQuote, ih⟩

/- Line ends and tabs are written by letters. -/
theorem notMem_escape
    {c : Char}
    (hControl : c = '\n' ∨ c = '\r' ∨ c = '\t')
    (cs : List Char) :
    c ∉ escape cs := by
  fun_induction escape cs with
  | case1 => exact List.not_mem_nil
  | case2 cs ih | case3 cs ih | case4 cs ih | case5 cs ih
  | case6 cs ih | case7 cs ih =>
      rcases hControl with rfl | rfl | rfl <;> simpa using ih
  | case8 d cs _ _ hLine hReturn hTab _ ih =>
      have hOther : c ≠ d := by
        rcases hControl with rfl | rfl | rfl
        · exact Ne.symm hLine
        · exact Ne.symm hReturn
        · exact Ne.symm hTab
      simpa using ⟨hOther, ih⟩

theorem notMem_quote
    {c : Char}
    (hControl : c = '\n' ∨ c = '\r' ∨ c = '\t')
    (s : String) :
    c ∉ (quote s).toList := by
  have hQuote : c ≠ '\x22' := by
    rcases hControl with rfl | rfl | rfl <;> decide
  rw [Lexeme.toList_quote]
  simpa [hQuote] using notMem_escape hControl s.toList

/- A brace comes first only where it came first before. -/
theorem head?_escape
    {cs : List Char}
    (hHead : (escape cs).head? = some '\x7b') :
    ∃ rest, cs = '\x7b' :: rest := by
  fun_cases escape cs with
  | case1 => cases hHead
  | case2 cs | case3 cs | case4 cs | case5 cs | case6 cs
  | case7 cs =>
      simp [escape] at hHead
  | case8 c cs =>
      simp [escape] at hHead
      exact ⟨cs, hHead ▸ rfl⟩

/- A dollar sign in front of a brace is escaped. -/
theorem escape_interpolation
    (cs : List Char)
    (i : Nat)
    (hDollar : (scan false (escape cs ++ ['\x22']))[i]? =
      some ('$', false)) :
    (escape cs ++ ['\x22'])[i + 1]? ≠ some '\x7b' := by
  fun_induction escape cs generalizing i with
  | case1 =>
      cases i with
      | zero => cases hDollar
      | succ i => cases hDollar
  | case2 cs ih | case3 cs ih | case4 cs ih | case5 cs ih
  | case6 cs ih =>
      rw [List.cons_append, List.cons_append, scan_escaped]
        at hDollar
      rcases i with _ | _ | i
      · cases hDollar
      · cases hDollar
      · exact ih i hDollar
  | case7 cs ih =>
      have hBrace : '\x7b' ≠ '\x5c' := by decide
      rw [List.cons_append, List.cons_append, List.cons_append,
        scan_escaped, scan_plain hBrace] at hDollar
      rcases i with _ | _ | _ | i
      · cases hDollar
      · cases hDollar
      · cases hDollar
      · exact ih i hDollar
  | case8 c cs hBackslash _ _ _ _ hPlain ih =>
      rw [List.cons_append, scan_plain hBackslash] at hDollar
      cases i with
      | zero =>
          intro hBrace
          have hChar : c = '$' := by simpa using hDollar
          have hHead : (escape cs).head? = some '\x7b' := by
            cases hEscape : escape cs with
            | nil => simp [hEscape] at hBrace
            | cons d ds => simpa [hEscape] using hBrace
          rcases head?_escape hHead with ⟨rest, hRest⟩
          exact hPlain rest hChar hRest
      | succ i => exact ih i hDollar

/- The first and the last are the only ones of their kind. -/
theorem getElem?_enclosed
    {α : Type}
    {x : α}
    {xs : List α}
    (hInner : x ∉ xs)
    (i : Nat) :
    (x :: (xs ++ [x]))[i]? = some x ↔
      i = 0 ∨ i = xs.length + 1 := by
  cases i with
  | zero => simp
  | succ i =>
      rw [List.getElem?_cons_succ]
      rcases Nat.lt_trichotomy i xs.length with
        hBefore | rfl | hBehind
      · have hOther : xs[i]? ≠ some x := fun hFound =>
          hInner (List.mem_of_getElem? hFound)
        rw [List.getElem?_append_left hBefore]
        simp [hOther, Nat.ne_of_lt hBefore]
      · simp
      · rw [List.getElem?_eq_none (by simp; omega)]
        simp [Nat.ne_of_gt hBehind]

/-
  A literal is read back as its text, whatever follows it, and
  it is sealed: no text can end it, break its line or have a
  part of itself evaluated.
-/
theorem quote_sealed
    (s t : String) :
    Lexeme.stringLiteral (quote s ++ t).toList =
        .ok s t.toList ∧
      Sealed (quote s).toList := by
  constructor
  · rw [String.toList_append]
    exact Lexeme.stringLiteral_quote s t.toList
  · refine ⟨?_, notMem_quote (.inl rfl) s,
      notMem_quote (.inr (.inl rfl)) s,
      notMem_quote (.inr (.inr rfl)) s, ?_⟩
    · intro i
      have hLength : (quote s).toList.length =
          (scan false (escape s.toList)).length + 2 := by
        rw [Lexeme.toList_quote]
        simp
      rw [scan_quote, hLength,
        getElem?_enclosed (quote_notMem_scan_escape s.toList)]
      omega
    · intro i hDollar
      have hQuote : '\x22' ≠ '\x5c' := by decide
      rw [Lexeme.toList_quote] at hDollar ⊢
      rw [scan_plain hQuote] at hDollar
      cases i with
      | zero => cases hDollar
      | succ i => exact escape_interpolation s.toList i hDollar

end Flux

end TypedFlux
