import Mathlib.Data.List.Find
import TypedFlux.Flux.Script
import TypedFlux.Proofs.Flux.Terms
import TypedFlux.Proofs.Time.Clocks

/-
  Literals and options, read back from their text.

  A number is written the same whether it is signed or not, so
  it is read back as a signed one wherever it fits.  Numbers
  with a point are not read at all.

  Key definitions include:
    * `Literal.normal`, `Literal.hasFloat`
    * `Flux.literal`
    * `Flux.option?`, `Script.option?`, `Script.literal?`

  Key theorems include:
    * `Literal.reads`
    * `Flux.option?_statement`
    * `Script.option?_eq`, `Script.literal?_eq`
-/

------------------------------------------------------------
-- Literals
------------------------------------------------------------

namespace TypedFlux

theorem Numeral.ofInt_natCast
    (n : Nat) :
    ofInt n = ofNat n := by
  unfold ofInt
  rw [if_neg (by omega), Int.natAbs_natCast]

namespace Literal

/-
  Induction over literals.  What holds for the items of an
  array may be used for the array.
-/
@[induction_eliminator]
theorem induction
    {motive : Literal → Prop}
    (integer : ∀ n, motive (.integer n))
    (unsigned : ∀ n, motive (.unsigned n))
    (boolean : ∀ b, motive (.boolean b))
    (float : ∀ x, motive (.float x))
    (string : ∀ s, motive (.string s))
    (time : ∀ t, motive (.time t))
    (duration : ∀ micros, motive (.duration micros))
    (array : ∀ items,
      (∀ item ∈ items, motive item) → motive (.array items))
    (l : Literal) :
    motive l := by
  refine @Literal.rec motive (fun ls => ∀ l ∈ ls, motive l)
    integer unsigned boolean float string time duration array
    ?_ ?_ l
  · intro l hMem
    exact absurd hMem List.not_mem_nil
  · intro head tail hHead hTail l hMem
    rcases List.mem_cons.mp hMem with rfl | hMem
    · exact hHead
    · exact hTail l hMem

mutual

/- The literal with signed numbers wherever they fit. -/
def normal : Literal → Literal
  | .unsigned n =>
      match Numeral.toInt64? n.toNat with
      | some k => .integer k
      | none => .unsigned n
  | .array items => .array (normals items)
  | .integer n => .integer n
  | .boolean b => .boolean b
  | .float x => .float x
  | .string s => .string s
  | .time t => .time t
  | .duration micros => .duration micros

/- The same for a list of literals. -/
def normals : List Literal → List Literal
  | [] => []
  | l :: rest => normal l :: normals rest

end

mutual

/- Whether there is a number with a point in a literal. -/
def hasFloat : Literal → Bool
  | .float _ => true
  | .array items => hasFloats items
  | _ => false

/- Whether there is one in a list of literals. -/
def hasFloats : List Literal → Bool
  | [] => false
  | l :: rest => hasFloat l || hasFloats rest

end

theorem normals_eq_map
    (ls : List Literal) :
    normals ls = ls.map normal := by
  induction ls with
  | nil => rfl
  | cons l ls ih => rw [normals, ih, List.map_cons]

theorem texts_eq_map
    (ls : List Literal) :
    texts ls = ls.map text := by
  induction ls with
  | nil => rfl
  | cons l ls ih => rw [texts, ih, List.map_cons]

/-
  An array has no floating point number if its items have
  none.
-/
theorem hasFloats_eq_false
    {ls : List Literal} :
    hasFloats ls = false ↔ ∀ l ∈ ls, l.hasFloat = false := by
  induction ls with
  | nil => simp [hasFloats]
  | cons l ls ih => simp [hasFloats, ih]

/- Normal forms are written the same. -/
theorem text_normal
    (l : Literal) :
    l.normal.text = l.text := by
  induction l with
  | unsigned n =>
      unfold normal
      split
      next k hFits =>
        unfold Numeral.toInt64? at hFits
        split at hFits
        next hRange =>
          have hSame : k.toInt = n.toNat := by
            rw [← Option.some.inj hFits]
            exact Int64.toInt_ofInt_of_le (by omega) (by omega)
          rw [text, hSame, Numeral.ofInt_natCast, text]
        next => cases hFits
      next => rfl
  | array items ih =>
      have hTexts : (items.map normal).map text =
          items.map text := by
        rw [List.map_map]
        exact List.map_congr_left ih
      rw [normal, text, text, texts_eq_map, texts_eq_map,
        normals_eq_map, hTexts]
  | integer | boolean | float | string | time | duration => rfl

end Literal

end TypedFlux

------------------------------------------------------------
-- Readers
------------------------------------------------------------

namespace TypedFlux

/- The literal of a number, signed wherever it fits. -/
def Literal.ofNumber? (n : Int) : Option Literal :=
  match Numeral.toInt64? n with
  | some k => some (.integer k)
  | none =>
      if 0 ≤ n ∧ n ≤ 0xffffffffffffffff then
        some (.unsigned (UInt64.ofNat n.toNat))
      else none

namespace Flux

open Reader Lexeme

/- A number of microseconds. -/
def duration : Reader Literal :=
  Reader.convert
    (do
      let n ← integer
      word "us"
      return n)
    fun n => (Numeral.toInt64? n).map .duration

/- What begins with a number. -/
def quantity : Reader Literal :=
  (do let t ← instant; return .time t) <|> duration
    <|> Reader.convert integer Literal.ofNumber?

/- Items in brackets. -/
def array (item : Reader Literal) : Reader Literal := do
  symbol '['
  let items ← sepBy item (word ", ")
  symbol ']'
  return .array items

/- A literal, nested at most this deep. -/
def literal : Nat → Reader Literal
  | 0 => missing .nesting
  | depth + 1 =>
      (do let s ← stringLiteral; return .string s)
        <|> array (literal depth)
        <|> (do word "true"; return .boolean true)
        <|> (do word "false"; return .boolean false)
        <|> quantity

/- What comes before the literal of an option. -/
def declaration : Reader String := do
  word "option "
  let x ← name
  word " = "
  return x

/- The name and the literal of an option. -/
def option? (line : String) : Option (String × Literal) :=
  let option : Reader (String × Literal) := do
    let x ← declaration
    let l ← literal line.length
    return (x, l)
  match option line.toList with
  | .ok found [] => some found
  | _ => none

/- The literal of an option, as it is written. -/
def literal? (line : String) : Option String :=
  match declaration line.toList with
  | .ok _ rest => some (String.ofList rest)
  | _ => none

/- Whether a line is the option of a name. -/
def declares
    (x line : String) : Bool :=
  match declaration line.toList with
  | .ok found _ => found == x
  | _ => false

end Flux

/- The literal of an option of a script. -/
def Script.option?
    (s : Script)
    (x : String) : Option Literal := do
  let line ← s.statements.find? (Flux.declares x)
  let (_, l) ← Flux.option? line
  return l

/- The same, as it is written. -/
def Script.literal?
    (s : Script)
    (x : String) : Option String := do
  let line ← s.statements.find? (Flux.declares x)
  Flux.literal? line

end TypedFlux

------------------------------------------------------------
-- Numbers
------------------------------------------------------------

namespace TypedFlux

namespace Flux

open Reader Lexeme

variable {s rest : List Char}

/- The characters that a number begins with. -/
def isNumberStart (c : Char) : Bool :=
  c.isDigit || c == '-' || c == '+'

/- The characters that may not follow a literal. -/
def goesOn (c : Char) : Bool :=
  c != ',' && c != ']'

/- In an array a comma or a bracket follows an item. -/
theorem avoids_of_goesOn
    {p : Char → Bool}
    (hComma : p ',' = false)
    (hBracket : p ']' = false)
    (hRest : Avoids goesOn rest) :
    Avoids p rest := by
  intro c hHead
  have hEnds := hRest c hHead
  simp only [goesOn, Bool.and_eq_false_iff, bne_eq_false_iff_eq]
    at hEnds
  rcases hEnds with rfl | rfl
  · exact hComma
  · exact hBracket

/- A text that begins with a number begins with nothing else. -/
theorem avoids_of_isNumberStart
    {d : Char}
    (hStart : ¬ Avoids isNumberStart s)
    (hOther : isNumberStart d = false) :
    Avoids (· == d) s := by
  cases s with
  | nil => exact avoids_nil _
  | cons c s =>
      rw [avoids_cons, Bool.not_eq_false] at hStart
      rw [avoids_cons, beq_eq_false_iff_ne]
      rintro rfl
      rw [hStart] at hOther
      cases hOther

/- A sign or a digit comes first. -/
theorem integer_misses
    (hHead : Avoids isNumberStart s) :
    integer.Misses s := by
  have hOther : ∀ {p : Char → Bool},
      (∀ c, p c = true → isNumberStart c = true) →
        Avoids p s := by
    intro p hStart c hMem
    rw [Bool.eq_false_iff]
    intro hClass
    have hNone := hHead c hMem
    rw [hStart c hClass] at hNone
    cases hNone
  have hMinus : (symbol '-').Misses s := by
    refine symbol_misses (hOther ?_)
    simp [isNumberStart]
  have hPlus : (symbol '+').Misses s := by
    refine symbol_misses (hOther ?_)
    simp [isNumberStart]
  have hSign : sign s = .ok 1 s := by
    unfold sign
    rw [orElse_of_misses (hMinus.bind _),
      orElse_of_misses (hPlus.bind _)]
    rfl
  refine misses_bind_of_ok hSign ((digits_misses (hOther ?_)).bind _)
  intro c hDigit
  simp [isNumberStart, hDigit]

theorem quantity_misses
    (hHead : Avoids isNumberStart s) :
    quantity.Misses s := by
  have hInteger := integer_misses hHead
  exact (((hInteger.bind _).convert _).bind _).orElse <|
    ((hInteger.bind _).convert _).orElse (hInteger.convert _)

/- What begins with a number is read in no other way. -/
theorem literal_of_quantity
    {l : Literal}
    (depth : Nat)
    (hRead : quantity s = .ok l rest) :
    literal (depth + 1) s = .ok l rest := by
  have hStart : ¬ Avoids isNumberStart s := by
    intro hHead
    rcases quantity_misses hHead with ⟨fault, hMiss⟩
    rw [hMiss] at hRead
    cases hRead
  have hOther : ∀ {d : Char}, isNumberStart d = false →
      Avoids (· == d) s :=
    fun hNumber => avoids_of_isNumberStart hStart hNumber
  have hQuote : Avoids (· == '\x22') s := hOther rfl
  have hApostrophe : Avoids (· == '\x27') s := hOther rfl
  have hString : stringLiteral.Misses s := by
    apply stringLiteral_misses
    intro c hMem
    rw [Bool.or_eq_false_iff]
    exact ⟨hQuote c hMem, hApostrophe c hMem⟩
  have hArray : (array (literal depth)).Misses s :=
    (symbol_misses (hOther rfl)).bind _
  have hTrue : (word "true").Misses s :=
    word_misses_of_head rfl (hOther rfl)
  have hFalse : (word "false").Misses s :=
    word_misses_of_head rfl (hOther rfl)
  unfold literal
  rw [orElse_of_misses (hString.bind _), orElse_of_misses hArray,
    orElse_of_misses (hTrue.bind _),
    orElse_of_misses (hFalse.bind _), hRead]

/- A time is told from a number by its dashes. -/
theorem quantity_instant
    (t : Instant) :
    quantity (t.text.toList ++ rest) = .ok (.time t) rest := by
  apply orElse_of_ok
  rw [bind_of_ok (instant_text t rest)]
  rfl

/- A number that is no year is no point in time. -/
theorem instant_misses
    {n : Int}
    (hRead : integer s = .ok n rest)
    (hRest : Avoids (· == '-') rest) :
    instant.Misses s :=
  (misses_bind_of_ok hRead
    ((symbol_misses hRest).bind _)).convert _

/- A duration is told from it by its unit. -/
theorem quantity_duration
    (n : Int64) :
    quantity ((Numeral.ofInt n.toInt ++ "us").toList ++ rest) =
      .ok (.duration n) rest := by
  have hChars : (Numeral.ofInt n.toInt ++ "us").toList ++ rest =
      (Numeral.ofInt n.toInt).toList
        ++ ("us".toList ++ rest) := by
    simp
  have hRead : integer ((Numeral.ofInt n.toInt).toList
      ++ ("us".toList ++ rest)) =
        .ok n.toInt ("us".toList ++ rest) :=
    integer_ofInt _ ((avoids_cons _ _ _).mpr rfl)
  have hMiss := instant_misses hRead
    ((avoids_cons _ _ _).mpr rfl)
  rw [hChars]
  unfold quantity
  rw [orElse_of_misses (hMiss.bind _)]
  apply orElse_of_ok
  refine convert_of_ok (?_ : _ = Reply.ok n.toInt rest) ?_
  · rw [bind_of_ok hRead, bind_of_ok (word_append _ _)]
    rfl
  · rw [toInt64?_toInt]
    rfl

/- A number has nothing behind it that would go on. -/
theorem quantity_number
    {n : Int}
    {l : Literal}
    (hNumber : Literal.ofNumber? n = some l)
    (hRest : Avoids goesOn rest) :
    quantity ((Numeral.ofInt n).toList ++ rest) =
      .ok l rest := by
  have hRead := integer_ofInt n
    (avoids_of_goesOn rfl rfl hRest)
  have hInstant := instant_misses hRead
    (avoids_of_goesOn rfl rfl hRest)
  have hMicros : (word "us").Misses rest :=
    word_misses_of_head rfl (avoids_of_goesOn rfl rfl hRest)
  have hDuration : duration.Misses
      ((Numeral.ofInt n).toList ++ rest) :=
    (misses_bind_of_ok hRead (hMicros.bind _)).convert _
  unfold quantity
  rw [orElse_of_misses (hInstant.bind _),
    orElse_of_misses hDuration]
  exact convert_of_ok hRead hNumber

/- A signed number is read back as itself. -/
theorem ofNumber?_toInt
    (n : Int64) :
    Literal.ofNumber? n.toInt = some (.integer n) := by
  unfold Literal.ofNumber?
  rw [toInt64?_toInt]

/- An unsigned one is read as signed where it fits. -/
theorem ofNumber?_toNat
    (n : UInt64) :
    Literal.ofNumber? n.toNat =
      some (Literal.unsigned n).normal := by
  have hLt := n.toNat_lt
  unfold Literal.ofNumber? Literal.normal
  split
  next => rfl
  next =>
    rw [if_pos (by omega), Int.toNat_natCast, UInt64.ofNat_toNat]

end Flux

end TypedFlux

------------------------------------------------------------
-- Literals Read Back
------------------------------------------------------------

namespace TypedFlux

namespace Flux

open Reader Lexeme

variable {rest : List Char}

/- Nothing is read before the end of an array. -/
theorem literal_misses
    (depth : Nat) :
    (literal depth).Misses (']' :: rest) := by
  cases depth with
  | zero => exact ⟨_, rfl⟩
  | succ depth =>
      have hOther : ∀ {p : Char → Bool}, p ']' = false →
          Avoids p (']' :: rest) :=
        fun hNone => (avoids_cons _ _ _).mpr hNone
      exact ((stringLiteral_misses (hOther rfl)).bind _).orElse <|
        ((symbol_misses (hOther rfl)).bind _).orElse <|
        ((word_misses_of_head rfl (hOther rfl)).bind _).orElse <|
        ((word_misses_of_head rfl (hOther rfl)).bind _).orElse <|
        quantity_misses (hOther rfl)

/- A letter begins neither a string nor an array. -/
theorem literal_of_isNameStart
    {c : Char}
    (depth : Nat)
    (hLetter : isNameStart c = true) :
    literal (depth + 1) (c :: rest) =
      ((do word "true"; return .boolean true)
        <|> (do word "false"; return .boolean false)
        <|> quantity : Reader Literal) (c :: rest) := by
  have hOther : ∀ {d : Char}, isNameStart d = false →
      (c == d) = false :=
    fun hNone => beq_eq_false_iff_ne.mpr
      (ne_of_class hLetter hNone)
  have hString : stringLiteral.Misses (c :: rest) := by
    apply stringLiteral_misses
    rw [avoids_cons, Bool.or_eq_false_iff]
    exact ⟨hOther rfl, hOther rfl⟩
  have hArray : (array (literal depth)).Misses (c :: rest) :=
    (symbol_misses ((avoids_cons _ _ _).mpr (hOther rfl))).bind _
  unfold literal
  rw [orElse_of_misses (hString.bind _), orElse_of_misses hArray]

/- Truth values are words. -/
theorem literal_boolText
    (depth : Nat)
    (b : Bool) :
    literal (depth + 1) ((Value.boolText b).toList ++ rest) =
      .ok (.boolean b) rest := by
  cases b with
  | true =>
      refine (literal_of_isNameStart depth rfl).trans ?_
      apply orElse_of_ok
      exact bind_of_ok (word_append "true" rest)
  | false =>
      have hTrue : (word "true").Misses
          ("false".toList ++ rest) :=
        word_misses_of_head rfl ((avoids_cons _ _ _).mpr rfl)
      refine (literal_of_isNameStart depth rfl).trans ?_
      refine (orElse_of_misses (hTrue.bind _)).trans ?_
      apply orElse_of_ok
      exact bind_of_ok (word_append "false" rest)

/- An array is read item by item, one level deeper. -/
theorem literal_join
    {texts : List String}
    {items : List Literal}
    {depth : Nat}
    (hReads : List.Forall₂
      (ReadsBefore (literal depth) (Avoids goesOn)) texts items) :
    literal (depth + 1)
        (("[" ++ ", ".intercalate texts ++ "]").toList ++ rest) =
      .ok (.array items) rest := by
  have hChars :
      ("[" ++ ", ".intercalate texts ++ "]").toList ++ rest =
        '[' :: ((", ".intercalate texts).toList
          ++ ']' :: rest) := by
    simp
  have hString : stringLiteral.Misses
      ('[' :: ((", ".intercalate texts).toList ++ ']' :: rest)) :=
    stringLiteral_misses ((avoids_cons _ _ _).mpr rfl)
  have hBetween : ∀ s, Avoids goesOn (", ".toList ++ s) :=
    fun s => (avoids_cons _ _ _).mpr rfl
  have hEnd : (word ", ").Misses (']' :: rest) :=
    word_misses_of_head rfl ((avoids_cons _ _ _).mpr rfl)
  have hItems := sepBy_join (by decide) hBetween hReads
    ((avoids_cons _ _ _).mpr rfl) hEnd (literal_misses depth)
  unfold literal
  rw [hChars, orElse_of_misses (hString.bind _)]
  apply orElse_of_ok
  unfold array
  rw [bind_of_ok (symbol_cons _ _), bind_of_ok hItems,
    bind_of_ok (symbol_cons _ _)]
  rfl

end Flux

namespace Literal

open Reader Lexeme Flux

/- Literals without a point are read back from their text. -/
theorem reads
    (l : Literal)
    (hPlain : l.hasFloat = false)
    {depth : Nat}
    {rest : List Char}
    (hDepth : l.text.length ≤ depth)
    (hRest : Avoids goesOn rest) :
    literal (depth + 1) (l.text.toList ++ rest) =
      .ok l.normal rest := by
  induction l generalizing depth rest with
  | integer n =>
      exact literal_of_quantity depth
        (quantity_number (ofNumber?_toInt n) hRest)
  | unsigned n =>
      rw [text, ← Numeral.ofInt_natCast]
      exact literal_of_quantity depth
        (quantity_number (ofNumber?_toNat n) hRest)
  | boolean b => exact literal_boolText depth b
  | float x => cases hPlain
  | string s =>
      apply orElse_of_ok
      rw [text, bind_of_ok (stringLiteral_quote s rest)]
      rfl
  | time t => exact literal_of_quantity depth (quantity_instant t)
  | duration n =>
      exact literal_of_quantity depth (quantity_duration n)
  | array items ih =>
      have hPlain := hasFloats_eq_false.mp hPlain
      rw [text, String.length_append, String.length_append]
        at hDepth
      have hRoom : 0 < "[".length := by decide
      rcases Nat.exists_eq_add_of_lt (Nat.lt_of_lt_of_le
        (by omega : 0 < _) hDepth) with ⟨deep, rfl⟩
      have hShort := length_le_join ", " (texts items)
      rw [text, normal, normals_eq_map]
      apply literal_join
      rw [texts_eq_map] at hShort hDepth ⊢
      rw [List.forall₂_map_left_iff, List.forall₂_map_right_iff,
        List.forall₂_same]
      intro item hMem rest hRest
      have hItem := hShort _ (List.mem_map_of_mem hMem)
      rw [Nat.zero_add]
      exact ih item hMem (hPlain item hMem) (by omega) hRest

end Literal

end TypedFlux

------------------------------------------------------------
-- Options Read Back
------------------------------------------------------------

namespace TypedFlux

namespace Flux

open Reader Lexeme

variable {v : Variable}

theorem toList_statement
    (v : Variable) :
    v.statement.toList =
      "option ".toList ++ (v.name.toList
        ++ (" = ".toList ++ v.literal.text.toList)) := by
  simp [Variable.statement]

/- The name of an option is read up to its literal. -/
theorem declaration_statement
    (hName : isName v.name = true) :
    declaration v.statement.toList =
      .ok v.name v.literal.text.toList := by
  have hRest : Avoids isNameChar
      (" = ".toList ++ v.literal.text.toList) :=
    (avoids_cons _ _ _).mpr (by decide)
  unfold declaration
  rw [toList_statement, bind_of_ok (word_append _ _),
    bind_of_ok (name_append hName hRest),
    bind_of_ok (word_append _ _)]
  rfl

/- An option is read back from its statement. -/
theorem option?_statement
    (hName : isName v.name = true)
    (hPlain : v.literal.hasFloat = false) :
    option? v.statement = some (v.name, v.literal.normal) := by
  have hDepth : v.literal.text.length + 1 ≤
      v.statement.length := by
    rw [← String.length_toList (s := v.statement),
      toList_statement]
    simp only [List.length_append, String.length_toList]
    have hWord : 0 < "option ".length := by decide
    omega
  rcases Nat.exists_eq_add_of_le hDepth with ⟨more, hLength⟩
  have hLiteral : literal v.statement.length
      v.literal.text.toList = .ok v.literal.normal [] := by
    rw [hLength, Nat.add_right_comm,
      ← List.append_nil v.literal.text.toList]
    exact v.literal.reads hPlain (Nat.le_add_right _ _)
      (avoids_nil _)
  have hOption : (do
      let x ← declaration
      let l ← literal v.statement.length
      return (x, l) : Reader (String × Literal))
        v.statement.toList =
          .ok (v.name, v.literal.normal) [] := by
    rw [bind_of_ok (declaration_statement hName),
      bind_of_ok hLiteral]
    rfl
  simp only [option?, hOption]

/- A line declares its own name and no other. -/
theorem declares_statement
    (hName : isName v.name = true)
    (x : String) :
    declares x v.statement = decide (v.name = x) := by
  unfold declares
  rw [declaration_statement hName]
  rfl

end Flux

namespace Script

variable {s : Script}
variable {vs : Variables}

/- The statement of a name is that of its variable. -/
theorem find?_declares
    (hStatements : s.statements = vs.statements)
    (hNames : ∀ v ∈ vs, Lexeme.isName v.name = true)
    (x : String) :
    s.statements.find? (Flux.declares x) =
      (vs.get? x).map Variable.statement := by
  have hFound : vs.find? (Flux.declares x ∘ Variable.statement) =
      vs.get? x :=
    List.find?_congr fun v hMem =>
      Flux.declares_statement (hNames v hMem) x
  rw [hStatements, Variables.statements, List.find?_map, hFound]

/- The options of a script are its variables. -/
theorem option?_eq
    (hStatements : s.statements = vs.statements)
    (hNames : ∀ v ∈ vs, Lexeme.isName v.name = true)
    (x : String) :
    s.option? x =
      (vs.get? x).bind fun v =>
        (Flux.option? v.statement).map (·.2) := by
  unfold option?
  rw [find?_declares hStatements hNames]
  cases vs.get? x with
  | none => rfl
  | some v =>
      cases hOption : Flux.option? v.statement with
      | none => simp [hOption]
      | some found => simp [hOption]

end Script

end TypedFlux
