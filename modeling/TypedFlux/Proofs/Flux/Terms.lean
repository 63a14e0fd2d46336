import TypedFlux.Flux.Part
import TypedFlux.Proofs.Flux.Naming
import TypedFlux.Proofs.Syntax.Joins

/-
  The filter of a script, read back.

  A filter joins conditions by `and`.  A condition is a name, a
  cell of the row, an operation in parentheses, or a call of a
  function with named arguments.

  Key definitions include:
    * `Flux.Term`
    * `Flux.term`
    * `Flux.conditions?`
    * `Flux.Reads`

  Key theorems include:
    * `Flux.reads_name`, `Flux.reads_cell`
    * `Flux.reads_operation`, `Flux.reads_call`
    * `Flux.conditions?_join`
-/

------------------------------------------------------------
-- Terms
------------------------------------------------------------

namespace TypedFlux

namespace Flux

/- A condition of a filter, or a part of one. -/
inductive Term where
  | name (name : String)
  | cell (column : String)
  | operation (op : BinaryOp) (left right : Term)
  | call (function : StringFunction) (args : List Term)

/- The operators of a filter, each of them once. -/
def operators : List BinaryOp :=
  [.equal, .notEqual, .lessThan, .lessThanOrEqual, .greaterThan,
    .greaterThanOrEqual, .and, .or]

/- An operator with the blanks around it. -/
def operatorText (op : BinaryOp) : String :=
  " " ++ op.token?.getD "" ++ " "

/- The functions of a filter. -/
def functions : List StringFunction :=
  [.containsStr, .hasPrefix, .hasSuffix, .replaceAll, .toLower,
    .toUpper, .toString]

/- A function with the parenthesis behind it. -/
def openingText (f : StringFunction) : String :=
  f.fluxName ++ "("

------------------------------------------------------------
-- Readers
------------------------------------------------------------

open Reader Lexeme

/- One of some items, as it is spelled. -/
def oneOf
    {α : Type}
    (spelling : α → String) : List α → Reader α
  | [] => missing .word
  | item :: rest =>
      (do word (spelling item); return item)
        <|> oneOf spelling rest

/- The cell of a row. -/
def cell : Reader Term := do
  word "r["
  let column ← stringLiteral
  symbol ']'
  return (.cell column)

/- Two terms and an operator, in parentheses. -/
def operation (term : Reader Term) : Reader Term := do
  symbol '('
  let left ← term
  let op ← oneOf operatorText operators
  let right ← term
  symbol ')'
  return (.operation op left right)

/- Arguments, each behind the name of its parameter. -/
def arguments
    (term : Reader Term) :
    String → List String → Reader (List Term)
  | _, [] => return []
  | separator, parameter :: rest => do
      word (separator ++ parameter ++ ": ")
      let arg ← term
      let args ← arguments term ", " rest
      return (arg :: args)

/- A function and its arguments. -/
def call (term : Reader Term) : Reader Term := do
  let f ← oneOf openingText functions
  let args ← arguments term "" f.parameters
  symbol ')'
  return (.call f args)

/- A term, nested at most this deep. -/
def term : Nat → Reader Term
  | 0 => missing .nesting
  | depth + 1 =>
      cell <|> operation (term depth) <|> call (term depth)
        <|> (do let s ← name; return (.name s))

/- A text is a term, whatever follows, and however deep. -/
def Reads
    (text : String)
    (t : Term) : Prop :=
  ∀ depth rest, text.length ≤ depth → Avoids isNameChar rest →
    term depth (text.toList ++ rest) = .ok t rest

end Flux

end TypedFlux

------------------------------------------------------------
-- Spellings
------------------------------------------------------------

namespace TypedFlux

namespace Flux

open Reader Lexeme

variable {α : Type}

/- Neither of two texts begins with the other. -/
def Apart (a b : String) : Prop :=
  ¬ a.toList <+: b.toList ∧ ¬ b.toList <+: a.toList

instance (a b : String) : Decidable (Apart a b) :=
  inferInstanceAs (Decidable (_ ∧ _))

/-
  One of two such words is not read for the other, whatever
  follows.
-/
theorem Apart.word_misses
    {a b : String}
    (hApart : Apart a b)
    (rest : List Char) :
    (word a).Misses (b.toList ++ rest) := by
  apply Lexeme.word_misses
  intro hBegins
  have hOther := List.prefix_append b.toList rest
  rcases Nat.le_total a.toList.length b.toList.length with
    hShort | hLong
  · exact hApart.1 (List.prefix_of_prefix_length_le hBegins
      hOther hShort)
  · exact hApart.2 (List.prefix_of_prefix_length_le hOther
      hBegins hLong)

/- An item is found by its spelling if that tells it apart. -/
theorem oneOf_append
    {spelling : α → String}
    {items : List α}
    {item : α}
    (hMem : item ∈ items)
    (hApart : items.Pairwise fun a b =>
      Apart (spelling a) (spelling b))
    (rest : List Char) :
    oneOf spelling items ((spelling item).toList ++ rest) =
      .ok item rest := by
  induction items with
  | nil => exact absurd hMem List.not_mem_nil
  | cons first others ih =>
      rcases List.pairwise_cons.mp hApart with
        ⟨hFirst, hOthers⟩
      unfold oneOf
      rcases List.mem_cons.mp hMem with rfl | hMem
      · apply orElse_of_ok
        rw [bind_of_ok (word_append _ rest)]
        rfl
      · have hMiss := (hFirst item hMem).word_misses rest
        rw [orElse_of_misses (hMiss.bind _)]
        exact ih hMem hOthers

/-
  Every operator is found by its own text. The blank behind it
  tells a short one from a longer one.
-/
theorem oneOf_operators
    {op : BinaryOp}
    (hMem : op ∈ operators)
    (rest : List Char) :
    oneOf operatorText operators
        ((operatorText op).toList ++ rest) = .ok op rest :=
  oneOf_append hMem (by decide) rest

/- So is every function, by the parenthesis behind it. -/
theorem oneOf_functions
    (f : StringFunction)
    (rest : List Char) :
    oneOf openingText functions
        ((openingText f).toList ++ rest) = .ok f rest := by
  refine oneOf_append ?_ (by decide) rest
  cases f <;> decide

end Flux

end TypedFlux

------------------------------------------------------------
-- Terms Read Back
------------------------------------------------------------

namespace TypedFlux

namespace Flux

open Reader Lexeme

variable {s rest : List Char}
variable {p : Reader Term}

theorem cell_misses
    (hHead : Avoids (· == 'r') s) :
    cell.Misses s :=
  (word_misses_of_head rfl hHead).bind _

theorem operation_misses
    (hHead : Avoids (· == '(') s) :
    (operation p).Misses s :=
  (symbol_misses hHead).bind _

/- No item is found where all of them miss. -/
theorem oneOf_misses
    {α : Type}
    {spelling : α → String}
    {items : List α}
    (hMiss : ∀ item ∈ items, (word (spelling item)).Misses s) :
    (oneOf spelling items).Misses s := by
  induction items with
  | nil => exact ⟨_, rfl⟩
  | cons first others ih =>
      refine Misses.orElse ?_ ?_
      · exact (hMiss first List.mem_cons_self).bind _
      · exact ih fun item hMem => hMiss item (.tail _ hMem)

/- All functions begin with the same letter. -/
theorem toList_openingText
    (f : StringFunction) :
    ∃ others, (openingText f).toList = 's' :: others := by
  cases f <;> exact ⟨_, rfl⟩

/- No function is called by another letter. -/
theorem call_misses
    (hHead : Avoids (· == 's') s) :
    (call p).Misses s := by
  refine Misses.bind (oneOf_misses fun f _ => ?_) _
  rcases toList_openingText f with ⟨others, hLetter⟩
  exact word_misses_of_head hLetter hHead

/- The name of a variable is a name as scripts have them. -/
theorem isName_nameAfter
    (n : Nat) :
    isName (Variables.nameAfter n) = true := by
  unfold isName
  rw [Variables.toList_nameAfter]
  have hDigits : (Numeral.ofNat (n + 1)).toList.all isNameChar =
      true :=
    List.all_eq_true.mpr fun c hMem =>
      isNameChar_of_isDigit (isDigit_of_mem_ofNat hMem)
  simp only [hDigits]
  decide

/- There is room for one more level. -/
theorem exists_succ_of_length
    {text : String}
    {first : Char}
    {others : List Char}
    {depth : Nat}
    (hText : text.toList = first :: others)
    (hDepth : text.length ≤ depth) :
    ∃ deep, depth = deep + 1 ∧ others.length ≤ deep := by
  have hLength : others.length + 1 ≤ depth := by
    rw [← List.length_cons (a := first), ← hText]
    exact hDepth
  exact ⟨depth - 1, by omega, by omega⟩

/-
  A variable is read as a name, since no other term begins
  with its letter.
-/
theorem reads_name
    (n : Nat) :
    Reads (Variables.nameAfter n)
      (.name (Variables.nameAfter n)) := by
  intro depth rest hDepth hRest
  have hChars := Variables.toList_nameAfter n
  rcases exists_succ_of_length hChars hDepth with ⟨deep, rfl, _⟩
  have hName := name_append (isName_nameAfter n) hRest
  unfold term
  rw [orElse_of_misses, orElse_of_misses, orElse_of_misses,
    bind_of_ok hName]
  · rfl
  · exact call_misses (by simp [hChars])
  · exact operation_misses (by simp [hChars])
  · exact cell_misses (by simp [hChars])

/- A column is read back, whatever its name is. -/
theorem reads_cell
    (column : String) :
    Reads (Part.accessor column) (.cell column) := by
  intro depth rest hDepth hRest
  have hChars : (Part.accessor column).toList ++ rest =
      "r[".toList ++ ((quote column).toList ++ ']' :: rest) := by
    simp [Part.accessor]
  have hFirst : (Part.accessor column).toList =
      'r' :: '[' :: ((quote column).toList ++ [']']) := by
    simp [Part.accessor]
  rcases exists_succ_of_length hFirst hDepth with ⟨deep, rfl, _⟩
  unfold term
  apply orElse_of_ok
  unfold cell
  rw [hChars, bind_of_ok (word_append _ _),
    bind_of_ok (stringLiteral_quote column _),
    bind_of_ok (symbol_cons _ _)]
  rfl

/- Two operators that are written the same are the same. -/
def plain : BinaryOp → BinaryOp
  | .andAlso => .and
  | .orElse => .or
  | op => op

/- The token of an operator is that of a plain one. -/
theorem plain_mem_operators
    {op : BinaryOp}
    (hToken : op.token? ≠ none) :
    plain op ∈ operators ∧ (plain op).token? = op.token? := by
  cases op with
  | add | subtract | multiply | divide | modulo =>
      exact absurd rfl hToken
  | _ => exact ⟨by decide, rfl⟩

/- An operation is read one level deeper than its operands. -/
theorem reads_operation
    {op : BinaryOp}
    {left right : String}
    {l r : Term}
    (hToken : op.token? ≠ none)
    (hLeft : Reads left l)
    (hRight : Reads right r) :
    Reads (Part.operation left (op.token?.getD "") right)
      (.operation (plain op) l r) := by
  intro depth rest hDepth hRest
  rcases plain_mem_operators hToken with ⟨hMem, hSame⟩
  have hFirst : (Part.operation left (op.token?.getD "")
      right).toList = '(' :: (left.toList
        ++ ((operatorText (plain op)).toList
          ++ (right.toList ++ [')']))) := by
    simp [Part.operation, operatorText, hSame]
  rcases exists_succ_of_length hFirst hDepth with
    ⟨deep, rfl, hDeep⟩
  simp only [List.length_append, String.length_toList] at hDeep
  have hLeft := hLeft deep ((operatorText (plain op)).toList
    ++ (right.toList ++ ')' :: rest)) (by omega)
    (by simp [operatorText]; decide)
  have hRight := hRight deep (')' :: rest) (by omega)
    (by simp; decide)
  unfold term
  rw [orElse_of_misses]
  · apply orElse_of_ok
    unfold operation
    rw [hFirst, List.cons_append, bind_of_ok (symbol_cons _ _)]
    simp only [List.append_assoc, List.singleton_append]
    rw [bind_of_ok hLeft, bind_of_ok (oneOf_operators hMem _),
      bind_of_ok hRight, bind_of_ok (symbol_cons _ _)]
    rfl
  · exact cell_misses (by simp [hFirst])

/- Arguments in a row, the first behind this separator. -/
def argumentsText (separator : String) : List String → String
  | [] => ""
  | arg :: rest => separator ++ arg ++ argumentsText ", " rest

/- Arguments in a row are joined by their separator. -/
theorem argumentsText_eq_join
    (args : List String) :
    argumentsText "" args = ", ".intercalate args := by
  cases args with
  | nil => rfl
  | cons arg rest =>
      rw [argumentsText, String.empty_append]
      induction rest generalizing arg with
      | nil => exact String.append_empty
      | cons next rest ih =>
          rw [String.intercalate_cons_cons, ← ih next, argumentsText]
          simp only [String.append_assoc]

/- An argument behind the name of its parameter. -/
def argument (parameter text : String) : String :=
  parameter ++ ": " ++ text

/- An argument ends before the next separator. -/
theorem avoids_argumentsText
    (args : List String)
    (hRest : Avoids isNameChar rest) :
    Avoids isNameChar
      ((argumentsText ", " args).toList ++ rest) := by
  cases args with
  | nil => simpa [argumentsText] using hRest
  | cons arg args =>
      simp only [argumentsText, String.toList_append,
        List.append_assoc]
      exact (avoids_cons _ _ _).mpr (by decide)

/- Arguments are read back in the order of the parameters. -/
theorem arguments_append
    {texts parameters : List String}
    {ts : List Term}
    {depth : Nat}
    (separator : String)
    (hReads : List.Forall₂ Reads texts ts)
    (hLength : parameters.length = texts.length)
    (hDepth : ∀ text ∈ texts, text.length ≤ depth)
    (hRest : Avoids isNameChar rest) :
    arguments (term depth) separator parameters
        ((argumentsText separator
          (List.zipWith argument parameters texts)).toList
            ++ rest) =
      .ok ts rest := by
  induction hReads generalizing parameters separator with
  | nil =>
      rw [List.length_nil, List.length_eq_zero_iff] at hLength
      subst hLength
      rfl
  | @cons text t texts ts hFirst hOthers ih =>
      cases parameters with
      | nil => cases hLength
      | cons parameter parameters =>
          have hItem := hFirst depth
            ((argumentsText ", " (List.zipWith argument parameters
              texts)).toList ++ rest)
            (hDepth text List.mem_cons_self)
            (avoids_argumentsText _ hRest)
          have hItems := ih ", " (Nat.succ.inj hLength)
            fun text hMem => hDepth text (.tail _ hMem)
          have hChars : (argumentsText separator
              (List.zipWith argument (parameter :: parameters)
                (text :: texts))).toList ++ rest =
              (separator ++ parameter ++ ": ").toList
                ++ (text.toList ++ ((argumentsText ", "
                  (List.zipWith argument parameters
                    texts)).toList ++ rest)) := by
            simp [argumentsText, argument]
          unfold arguments
          rw [hChars, bind_of_ok (word_append _ _),
            bind_of_ok hItem, bind_of_ok hItems]
          rfl

/-
  No argument is longer than all of them, so there is room for
  its depth.
-/
theorem length_le_argumentsText
    {texts parameters : List String}
    (separator : String)
    (hLength : parameters.length = texts.length) :
    ∀ text ∈ texts, text.length ≤
      (argumentsText separator
        (List.zipWith argument parameters texts)).length := by
  induction texts generalizing parameters separator with
  | nil => exact fun _ hMem => absurd hMem List.not_mem_nil
  | cons first texts ih =>
      cases parameters with
      | nil => cases hLength
      | cons parameter parameters =>
          intro text hMem
          have hRest := ih ", " (Nat.succ.inj hLength) text
          simp only [List.zipWith_cons_cons, argumentsText,
            argument, String.length_append]
          rcases List.mem_cons.mp hMem with rfl | hMem
          · omega
          · have := hRest hMem
            omega

/- A call is read one level deeper than its arguments. -/
theorem reads_call
    {texts : List String}
    {ts : List Term}
    (f : StringFunction)
    (hReads : List.Forall₂ Reads texts ts)
    (hLength : f.parameters.length = texts.length) :
    Reads
      (f.fluxName ++ "("
        ++ ", ".intercalate
          (List.zipWith argument f.parameters texts)
        ++ ")")
      (.call f ts) := by
  intro depth rest hDepth hRest
  rw [← argumentsText_eq_join] at hDepth ⊢
  generalize hArgs : argumentsText ""
    (List.zipWith argument f.parameters texts) = args at hDepth ⊢
  rcases toList_openingText f with ⟨others, hLetter⟩
  have hChars : (f.fluxName ++ "(" ++ args ++ ")").toList =
      (openingText f).toList ++ (args.toList ++ [')']) := by
    simp [openingText]
  have hFirst : (f.fluxName ++ "(" ++ args ++ ")").toList =
      's' :: (others ++ (args.toList ++ [')'])) := by
    rw [hChars, hLetter, List.cons_append]
  rcases exists_succ_of_length hFirst hDepth with
    ⟨deep, rfl, hDeep⟩
  simp only [List.length_append, String.length_toList] at hDeep
  have hTexts : ∀ text ∈ texts, text.length ≤ deep := by
    intro text hMem
    have hText := length_le_argumentsText "" hLength text hMem
    rw [hArgs] at hText
    omega
  have hClosing : Avoids isNameChar (')' :: rest) :=
    (avoids_cons _ _ _).mpr (by decide)
  have hAll := arguments_append "" hReads hLength hTexts hClosing
  rw [hArgs] at hAll
  unfold term
  rw [orElse_of_misses, orElse_of_misses]
  · apply orElse_of_ok
    unfold call
    rw [hChars]
    simp only [List.append_assoc, List.singleton_append]
    rw [bind_of_ok (oneOf_functions f _), bind_of_ok hAll,
      bind_of_ok (symbol_cons _ _)]
    rfl
  · exact operation_misses (by simp [hFirst])
  · exact cell_misses (by simp [hFirst])

end Flux

end TypedFlux

------------------------------------------------------------
-- Conditions Read Back
------------------------------------------------------------

namespace TypedFlux

namespace Flux

open Reader Lexeme

end Flux

end TypedFlux
