import TypedFlux.Flux.Part
import TypedFlux.Proofs.Flux.Naming
import TypedFlux.Proofs.Flux.Stages

/-
  Variables, found again in the text of a condition.

  A name is a run of letters and digits outside of literals.
  What a text names is told piece by piece, because pieces are
  parted by characters that no name has.  Whatever else is told
  so has the same rules for cells, operations and arguments.

  Key definitions include:
    * `Scan.code`, `Scan.runs`
    * `Scan.isName`, `Scan.names`
    * `Scan.Piecewise`
    * `Scan.Names`

  Key theorems include:
    * `Scan.names_append`
    * `Scan.Piecewise.join`, `Scan.Piecewise.arguments`
    * `Scan.Piecewise.accessor`, `Scan.Piecewise.operation`
    * `Scan.Names.call`
    * `Scan.names_piecewise`
-/

------------------------------------------------------------
-- Names in a Text
------------------------------------------------------------

namespace TypedFlux

namespace Scan

/- The characters in code; a literal leaves its first quote. -/
def code : Place → List Char → List Char
  | _, [] => []
  | .code depth, c :: cs =>
      c :: code ((Place.code depth).next c) cs
  | p, c :: cs => code (p.next c) cs

/- Whether a character can stand in a name. -/
def isWord (c : Char) : Bool :=
  c.isAlphanum || c == '_'

/- The texts between characters that stand in no name. -/
def runs : List Char → List (List Char)
  | [] => [[]]
  | c :: cs =>
      if isWord c then consFirst c (runs cs)
      else [] :: runs cs

/- Whether a run is the name of a variable. -/
def isName : List Char → Bool
  | 'p' :: c :: cs => (c :: cs).all Char.isDigit
  | _ => false

/- The variables that a text names outside of literals. -/
def names (cs : List Char) : List String :=
  ((runs (code (.code 0) cs)).filter isName).map String.ofList

-- neither columns nor parts of longer words are names
example :
    names "((r[\"p7\\\" p8\"] == p12) and pp3(v: p05))".toList =
      ["p12", "p05"] := by
  decide

------------------------------------------------------------
-- Code
------------------------------------------------------------

/- Parentheses do not change what is code. -/
theorem code_depth
    (m n : Nat)
    (cs : List Char) :
    code (.code m) cs = code (.code n) cs ∧
      code (.quoted m) cs = code (.quoted n) cs ∧
      code (.escaped m) cs = code (.escaped n) cs := by
  induction cs generalizing m n with
  | nil => exact ⟨rfl, rfl, rfl⟩
  | cons c cs ih =>
      refine ⟨?_, ?_, (ih m n).2.1⟩
      · simp only [code, Place.next]
        by_cases hQuote : c = '\x22'
        · simp only [if_pos hQuote, (ih m n).2.1]
        · by_cases hOpen : c = '('
          · simp only [if_neg hQuote, if_pos hOpen,
              (ih (m + 1) (n + 1)).1]
          · by_cases hClose : c = ')'
            · simp only [if_neg hQuote, if_neg hOpen,
                if_pos hClose, (ih (m - 1) (n - 1)).1]
            · simp only [if_neg hQuote, if_neg hOpen,
                if_neg hClose, (ih m n).1]
      · simp only [code, Place.next]
        by_cases hBackslash : c = '\x5c'
        · simp only [if_pos hBackslash, (ih m n).2.2]
        · by_cases hQuote : c = '\x22'
          · simp only [if_neg hBackslash, if_pos hQuote,
              (ih m n).1]
          · simp only [if_neg hBackslash, if_neg hQuote,
              (ih m n).2.1]

/- The code of a text, up to where its first part ends. -/
theorem code_append
    (p : Place)
    (cs ds : List Char) :
    code p (cs ++ ds) = code p cs ++ code (p.after cs) ds := by
  induction cs generalizing p with
  | nil => rfl
  | cons c cs ih =>
      cases p with
      | code depth =>
          simp only [List.cons_append, code, ih,
            Place.after_cons]
      | quoted depth =>
          simp only [List.cons_append, code, ih,
            Place.after_cons]
      | escaped depth =>
          simp only [List.cons_append, code, ih,
            Place.after_cons]

/- Nothing between quotes is code. -/
theorem code_escape
    (depth : Nat)
    (cs : List Char) :
    code (.quoted depth) (Flux.escape cs) = [] := by
  fun_induction Flux.escape cs with
  | case1 => rfl
  | case2 cs ih => exact ih
  | case3 cs ih => exact ih
  | case4 cs ih => exact ih
  | case5 cs ih => exact ih
  | case6 cs ih => exact ih
  | case7 cs ih => exact ih
  | case8 c cs hBackslash hQuote _ _ _ _ ih =>
      simp only [code, Place.next]
      rw [if_neg hBackslash, if_neg hQuote]
      exact ih

/- Behind a closed text, code begins anew. -/
theorem code_cons
    {cs : List Char}
    {d : Char}
    (hClosed : Closed cs)
    (hQuote : d ≠ '\x22')
    (ds : List Char) :
    code (.code 0) (cs ++ d :: ds) =
      code (.code 0) cs ++ d :: code (.code 0) ds := by
  have hNext : ∃ depth,
      (Place.code 1).next d = .code depth := by
    simp only [Place.next, hQuote, if_false]
    by_cases hOpen : d = '('
    · exact ⟨2, by rw [if_pos hOpen]⟩
    · rw [if_neg hOpen]
      by_cases hClose : d = ')'
      · exact ⟨0, by rw [if_pos hClose]⟩
      · exact ⟨1, by rw [if_neg hClose]⟩
  rcases hNext with ⟨depth, hNext⟩
  rw [(code_depth 0 1 _).1, code_append, hClosed.after 0,
    (code_depth 0 1 cs).1, (code_depth 0 depth ds).1, ← hNext]
  rfl

------------------------------------------------------------
-- Runs
------------------------------------------------------------

theorem runs_ne_nil
    (cs : List Char) :
    runs cs ≠ [] := by
  cases cs with
  | nil => simp [runs]
  | cons c cs =>
      unfold runs
      split
      · cases runs cs with
        | nil => simp [consFirst]
        | cons first rest => simp [consFirst]
      · simp

theorem consFirst_append
    {texts : List (List Char)}
    (hTexts : texts ≠ [])
    (c : Char)
    (others : List (List Char)) :
    consFirst c (texts ++ others) =
      consFirst c texts ++ others := by
  cases texts with
  | nil => exact absurd rfl hTexts
  | cons first rest => rfl

/- The runs before such a character are parted from those behind. -/
theorem runs_append
    {d : Char}
    (hOther : isWord d = false)
    (cs ds : List Char) :
    runs (cs ++ d :: ds) = runs cs ++ runs ds := by
  induction cs with
  | nil => simp [runs, hOther]
  | cons c cs ih =>
      rw [List.cons_append, runs, runs, ih]
      split
      · rw [consFirst_append (runs_ne_nil cs)]
      · rfl

/- A word is one run. -/
theorem runs_of_isWord
    {cs : List Char}
    (hWord : cs.all isWord = true) :
    runs cs = [cs] := by
  induction cs with
  | nil => rfl
  | cons c cs ih =>
      rw [List.all_cons, Bool.and_eq_true] at hWord
      rw [runs, if_pos hWord.1, ih hWord.2]
      rfl

/- Names do not reach over a character that ends words. -/
theorem names_append
    {cs : List Char}
    {d : Char}
    (hClosed : Closed cs)
    (hOther : isWord d = false)
    (hQuote : d ≠ '\x22')
    (ds : List Char) :
    names (cs ++ d :: ds) = names cs ++ names ds := by
  unfold names
  rw [code_cons hClosed hQuote, runs_append hOther,
    List.filter_append, List.map_append]

------------------------------------------------------------
-- Texts Told Piece by Piece
------------------------------------------------------------

/- Whether a character can stand in the path of a function. -/
def isPath (c : Char) : Bool :=
  isWord c || c == '.'

/- A mark stands neither in paths nor at their ends. -/
def isMark (c : Char) : Bool :=
  !isPath c && isPlain c

/-
  What texts tell, piece by piece.  Marks part the pieces, and
  nothing is told by words that are no variables, by literals
  and by parentheses.
-/
structure Piecewise
    (R : List Char → List String → Prop) : Prop where
  word : ∀ {cs : List Char},
    cs.all isWord = true → isName cs = false → R cs []
  quote : ∀ s : String, R (Flux.quote s).toList []
  paren : ∀ {cs : List Char} {xs : List String},
    R cs xs → R ('(' :: (cs ++ [')'])) xs
  append : ∀ {cs ds : List Char} {xs ys : List String} {d : Char},
    R cs xs → isMark d = true → R ds ys →
      R (cs ++ d :: ds) (xs ++ ys)

/- A separator of several characters. -/
def Separates
    (R : List Char → List String → Prop)
    (separator : String) : Prop :=
  ∀ {cs ds : List Char} {xs ys : List String},
    R cs xs → R ds ys →
      R (cs ++ separator.toList ++ ds) (xs ++ ys)

namespace Piecewise

variable {R : List Char → List String → Prop}

/- Marks mention nothing. -/
theorem marks
    (hR : Piecewise R)
    {cs : List Char}
    (hMarks : cs.all isMark = true) :
    R cs [] := by
  induction cs with
  | nil => exact hR.word rfl rfl
  | cons c cs ih =>
      rw [List.all_cons, Bool.and_eq_true] at hMarks
      exact hR.append (hR.word rfl rfl : R [] []) hMarks.1
        (ih hMarks.2)

/- A comma with its blank ends what is before it. -/
theorem separates_comma
    (hR : Piecewise R) :
    Separates R ", " := by
  intro cs ds xs ys hFirst hSecond
  have hBlank : R [] [] := hR.word rfl rfl
  have hRest := hR.append (d := ' ') hBlank rfl hSecond
  rw [List.append_assoc]
  exact hR.append (d := ',') hFirst rfl hRest

/- So does a conjunction, whose letters are no name. -/
theorem separates_and
    (hR : Piecewise R) :
    Separates R " and " := by
  intro cs ds xs ys hFirst hSecond
  have hWord : R "and".toList [] := hR.word rfl rfl
  have hRest := hR.append (d := ' ') hWord rfl hSecond
  rw [List.append_assoc]
  exact hR.append (d := ' ') hFirst rfl hRest

/- Joined texts tell what each of them tells. -/
theorem join
    {α : Type}
    {separator : String}
    {items : List α}
    {text : α → String}
    {told : α → List String}
    (hR : Piecewise R)
    (hSeparator : Separates R separator)
    (hItems : ∀ a ∈ items, R (text a).toList (told a)) :
    R (separator.intercalate (items.map text)).toList
      (items.flatMap told) := by
  cases items with
  | nil => exact hR.word rfl rfl
  | cons first rest =>
      induction rest generalizing first with
      | nil =>
          rw [List.flatMap_singleton]
          exact hItems first List.mem_cons_self
      | cons second rest ih =>
          rw [List.forall_mem_cons] at hItems
          rw [List.map_cons, List.map_cons,
            String.intercalate_cons_cons, String.toList_append,
            String.toList_append, List.flatMap_cons]
          exact hSeparator hItems.1 (ih second hItems.2)

/- The names of arguments tell nothing. -/
theorem arguments
    {items : List (String × String)}
    {told : String × String → List String}
    (hR : Piecewise R)
    (hItems : ∀ a ∈ items,
      R a.1.toList [] ∧ R a.2.toList (told a)) :
    R (", ".intercalate
        (items.map fun a => a.1 ++ ": " ++ a.2)).toList
      (items.flatMap told) := by
  apply hR.join hR.separates_comma
  intro a hMem
  rcases hItems a hMem with ⟨hName, hValue⟩
  have hBlank : R [] [] := hR.word rfl rfl
  have hRest := hR.append (d := ' ') hBlank rfl hValue
  have hText : (a.1 ++ ": " ++ a.2).toList =
      a.1.toList ++ ':' :: ([] ++ ' ' :: a.2.toList) := by
    simp
  rw [hText]
  exact hR.append (d := ':') hName rfl hRest

/- Arguments under the names of their parameters. -/
theorem parameters
    {names texts : List String}
    {told : String → List String}
    (hR : Piecewise R)
    (hLength : names.length = texts.length)
    (hNames : ∀ s ∈ names, R s.toList [])
    (hTexts : ∀ s ∈ texts, R s.toList (told s)) :
    R (", ".intercalate (List.zipWith
        (fun parameter text => parameter ++ ": " ++ text)
        names texts)).toList
      (texts.flatMap told) := by
  have hItems : ∀ a ∈ names.zip texts,
      R a.1.toList [] ∧ R a.2.toList (told a.2) := by
    intro a hMem
    have hParts := List.of_mem_zip hMem
    exact ⟨hNames a.1 hParts.1, hTexts a.2 hParts.2⟩
  have hTold : (names.zip texts).flatMap (fun a => told a.2) =
      texts.flatMap told := by
    rw [← List.flatMap_map,
      List.map_snd_zip (Nat.le_of_eq hLength.symm)]
  have hArguments := hR.arguments hItems
  rw [List.map_zip_eq_zipWith, hTold] at hArguments
  exact hArguments

/- A cell tells nothing, whatever its column is called. -/
theorem accessor
    (hR : Piecewise R)
    (column : String) :
    R (Part.accessor column).toList [] := by
  have hRow : R "r".toList [] := hR.word rfl rfl
  have hBlank : R [] [] := hR.word rfl rfl
  have hColumn := hR.append (d := ']') (hR.quote column) rfl
    hBlank
  have hText : (Part.accessor column).toList = "r".toList
      ++ '[' :: ((Flux.quote column).toList ++ [']']) := by
    simp [Part.accessor]
  rw [hText]
  exact hR.append (d := '[') hRow rfl hColumn

/- A token mentions nothing. -/
theorem token
    (hR : Piecewise R)
    (op : BinaryOp) :
    R (op.token?.getD "").toList [] := by
  cases op with
  | equal | notEqual | lessThan | lessThanOrEqual
  | greaterThan | greaterThanOrEqual => exact hR.marks rfl
  | andAlso | and | orElse | or | add | subtract | multiply
  | divide | modulo => exact hR.word rfl rfl

/- An operation tells what its operands tell. -/
theorem operation
    {left right : String}
    {xs ys : List String}
    (hR : Piecewise R)
    (hLeft : R left.toList xs)
    (op : BinaryOp)
    (hRight : R right.toList ys) :
    R (Part.operation left (op.token?.getD "") right).toList
      (xs ++ ys) := by
  have hSecond := hR.append (d := ' ') (hR.token op) rfl hRight
  have hText :
      (Part.operation left (op.token?.getD "") right).toList =
        '(' :: ((left.toList
          ++ ' ' :: ((op.token?.getD "").toList
            ++ ' ' :: right.toList)) ++ [')']) := by
    simp [Part.operation]
  rw [hText]
  exact hR.paren (hR.append (d := ' ') hLeft rfl hSecond)

end Piecewise

------------------------------------------------------------
-- Texts and their Names
------------------------------------------------------------

/- A closed text that names these variables, in this order. -/
structure Names
    (cs : List Char)
    (xs : List String) : Prop where
  closed : Closed cs
  names : names cs = xs

/- A text without literals and parentheses that names none. -/
theorem names_plain
    {cs : List Char}
    (hPlain : cs.all isPlain = true)
    (hNone : names cs = []) :
    Names cs [] :=
  ⟨closed_of_isPlain hPlain, hNone⟩

/- A separator stands neither in names nor at their ends. -/
def isSeparator (c : Char) : Bool :=
  !isWord c && isPlain c

theorem names_nil :
    Names [] [] :=
  names_plain rfl rfl

/- The names of two texts with a separator between them. -/
theorem Names.append
    {cs ds : List Char}
    {xs ys : List String}
    {d : Char}
    (hFirst : Names cs xs)
    (hSeparator : isSeparator d = true)
    (hSecond : Names ds ys) :
    Names (cs ++ d :: ds) (xs ++ ys) := by
  simp only [isSeparator, Bool.and_eq_true,
    Bool.not_eq_true'] at hSeparator
  rcases hSeparator with ⟨hOther, hPlain⟩
  have hOne : Closed [d] := closed_of_isPlain (by simp [hPlain])
  have hQuote : d ≠ '\x22' := by
    intro hSame
    rw [hSame] at hPlain
    cases hPlain
  constructor
  · exact hFirst.closed.append (hOne.append hSecond.closed)
  · rw [names_append hFirst.closed hOther hQuote,
      hFirst.names, hSecond.names]

/- Parentheses add no names, nor does what is called. -/
theorem Names.call
    {name cs : List Char}
    {xs : List String}
    (hName : Names name [])
    (hInner : Names cs xs) :
    Names (name ++ '(' :: (cs ++ [')'])) xs where
  closed := hName.closed.append (closed_paren hInner.closed)
  names := by
    rw [names_append hName.closed rfl (by decide),
      names_append hInner.closed rfl (by decide),
      hName.names, hInner.names]
    exact List.append_nil xs

------------------------------------------------------------
-- Variables and Literals
------------------------------------------------------------

theorem isWord_of_isDigit
    {c : Char}
    (hDigit : c.isDigit = true) :
    isWord c = true := by
  simp [isWord, Char.isAlphanum, hDigit]

theorem isPlain_of_isWord
    {c : Char}
    (hWord : isWord c = true) :
    isPlain c = true := by
  have hOther : ∀ d : Char, isWord d = false → c ≠ d := by
    intro d hNoWord hSame
    rw [← hSame, hWord] at hNoWord
    cases hNoWord
  simp [isPlain, hOther '\x22' rfl, hOther '(' rfl,
    hOther ')' rfl]

/- A text without literals is all code. -/
theorem code_of_isPlain
    {cs : List Char}
    (hPlain : cs.all isPlain = true) :
    code (.code 0) cs = cs := by
  induction cs with
  | nil => rfl
  | cons c cs ih =>
      rw [List.all_cons, Bool.and_eq_true] at hPlain
      rw [code, next_of_isPlain hPlain.1, ih hPlain.2]

theorem all_isPlain_of_isWord
    {cs : List Char}
    (hWord : cs.all isWord = true) :
    cs.all isPlain = true := by
  rw [List.all_eq_true] at hWord ⊢
  exact fun c hMem => isPlain_of_isWord (hWord c hMem)

/- The name of a variable is one word. -/
theorem isWord_nameAfter
    (n : Nat) :
    (Variables.nameAfter n).toList.all isWord = true := by
  rw [Variables.toList_nameAfter, List.all_cons,
    Bool.and_eq_true, List.all_eq_true]
  exact ⟨rfl, fun c hMem =>
    isWord_of_isDigit (Lexeme.isDigit_of_mem_ofNat hMem)⟩

/- A variable names itself. -/
theorem names_nameAfter
    (n : Nat) :
    Names (Variables.nameAfter n).toList
      [Variables.nameAfter n] := by
  refine ⟨closed_nameAfter n, ?_⟩
  have hWord := isWord_nameAfter n
  have hName : isName (Variables.nameAfter n).toList =
      true := by
    rcases Lexeme.toList_ofNat_cons (n + 1) with
      ⟨c, cs, hNumeral, _⟩
    rw [Variables.toList_nameAfter, hNumeral, isName,
      List.all_eq_true, ← hNumeral]
    exact fun c hMem => Lexeme.isDigit_of_mem_ofNat hMem
  unfold names
  rw [code_of_isPlain (all_isPlain_of_isWord hWord),
    runs_of_isWord hWord]
  simp [hName]

/- A literal leaves its first quote in the code. -/
theorem code_quote
    (s : String) :
    code (.code 0) (Flux.quote s).toList = ['\x22'] := by
  rw [Lexeme.toList_quote]
  change '\x22' :: code (.quoted 0)
    (Flux.escape s.toList ++ ['\x22']) = _
  rw [code_append, code_escape, (escape_quoted 0 _).1]
  rfl

/- What is in quotes mentions nothing. -/
theorem names_quote
    (s : String) :
    Names (Flux.quote s).toList [] := by
  refine ⟨closed_quote s, ?_⟩
  unfold names
  rw [code_quote]
  rfl

theorem isPlain_of_isMark
    {c : Char}
    (hMark : isMark c = true) :
    isWord c = false ∧ isPlain c = true := by
  simp only [isMark, isPath, Bool.and_eq_true,
    Bool.not_eq_true', Bool.or_eq_false_iff] at hMark
  exact ⟨hMark.1.1, hMark.2⟩

/- Variables are named piece by piece. -/
theorem names_piecewise :
    Piecewise Names where
  word := by
    intro cs hWord hOther
    have hPlain := all_isPlain_of_isWord hWord
    refine names_plain hPlain ?_
    unfold names
    rw [code_of_isPlain hPlain, runs_of_isWord hWord]
    simp [hOther]
  quote := names_quote
  paren := fun hInner => names_nil.call hInner
  append := by
    intro cs ds xs ys d hFirst hMark hSecond
    refine hFirst.append ?_ hSecond
    rcases isPlain_of_isMark hMark with ⟨hWord, hPlain⟩
    rw [isSeparator, hWord, hPlain]
    rfl

end Scan

end TypedFlux
