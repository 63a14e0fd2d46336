import TypedFlux.Flux.Literal
import TypedFlux.Proofs.Syntax.Readers
import TypedFlux.Syntax.Lexeme

/-
  The words of a query, read back from their spelling.

  A lexeme is read up to the first character that could not
  go on with it, so each statement asks of the rest of the
  text which characters it does not begin with.

  Key definitions include:
    * `Lexeme.Avoids`
    * `Lexeme.isName`
    * `Numeral.IsDigits`
    * `Lexeme.units`

  Key theorems include:
    * `Lexeme.keyword_append`, `Lexeme.keyword_misses`
    * `Lexeme.name_append`, `Lexeme.name_eq_ok`
    * `Lexeme.stringLiteral_quote`
    * `Lexeme.unit_append`
    * `Lexeme.span_run`, `Lexeme.span_misses_run`
    * `Lexeme.number_run`, `Lexeme.number_misses_run`
-/

namespace TypedFlux

namespace Lexeme

open Reader

------------------------------------------------------------
-- Runs of Characters
------------------------------------------------------------

/- A text does not begin with a character of a class. -/
def Avoids
    (p : Char → Bool)
    (s : List Char) : Prop :=
  ∀ c ∈ s.head?, p c = false

@[simp] theorem avoids_nil
    (p : Char → Bool) :
    Avoids p [] := by
  simp [Avoids]

@[simp] theorem avoids_cons
    (p : Char → Bool)
    (c : Char)
    (s : List Char) :
    Avoids p (c :: s) ↔ p c = false := by
  simp [Avoids]

/- A class tells its characters from others. -/
theorem ne_of_class
    {p : Char → Bool}
    {c d : Char}
    (hOwn : p c = true)
    (hOther : p d = false) :
    c ≠ d := by
  rintro rfl
  simp [hOwn] at hOther

/- A run ends where the rest does not go on with it. -/
theorem takeWhile_run
    {p : Char → Bool}
    {run rest : List Char}
    (hRun : ∀ c ∈ run, p c = true)
    (hRest : Avoids p rest) :
    (run ++ rest).takeWhile p = run := by
  rw [List.takeWhile_append_of_pos hRun]
  cases rest with
  | nil => simp
  | cons c rest =>
      have hHead := (avoids_cons p c rest).mp hRest
      simp [hHead]

theorem dropWhile_run
    {p : Char → Bool}
    {run rest : List Char}
    (hRun : ∀ c ∈ run, p c = true)
    (hRest : Avoids p rest) :
    (run ++ rest).dropWhile p = rest := by
  rw [List.dropWhile_append_of_pos hRun]
  cases rest with
  | nil => simp
  | cons c rest =>
      have hHead := (avoids_cons p c rest).mp hRest
      simp [hHead]

/- What is left does not begin with what was dropped. -/
theorem avoids_dropWhile
    (p : Char → Bool)
    (s : List Char) :
    Avoids p (s.dropWhile p) := by
  induction s with
  | nil => exact avoids_nil p
  | cons c s ih =>
      rw [List.dropWhile_cons]
      split
      · exact ih
      · next hOther =>
          exact (avoids_cons p c s).mpr (by simpa using hOther)

------------------------------------------------------------
-- Symbols and Layout
------------------------------------------------------------

@[simp] theorem symbol_cons
    (c : Char)
    (s : List Char) :
    symbol c (c :: s) = .ok () s := by
  simp [symbol]

/- Another character, or none, is a miss. -/
theorem symbol_misses
    {c : Char}
    {s : List Char}
    (hHead : Avoids (· == c) s) :
    (symbol c).Misses s := by
  cases s with
  | nil => exact ⟨_, rfl⟩
  | cons d s =>
      have hNe := (avoids_cons (· == c) d s).mp hHead
      exact ⟨⟨d :: s, .symbol⟩, by simp_all [symbol]⟩

/- Layout is made of four characters. -/
theorem false_of_isLayout
    {p : Char → Bool}
    (hFree : (p ' ' || p '\t' || p '\r' || p '\n') = false)
    {c : Char}
    (hLayout : Text.isLayout c = true) :
    p c = false := by
  simp only [Bool.or_eq_false_iff] at hFree
  rcases hFree with ⟨⟨⟨hSpace, hTab⟩, hReturn⟩, hLine⟩
  simp only [Text.isLayout, Bool.or_eq_true,
    beq_iff_eq] at hLayout
  rcases hLayout with ((rfl | rfl) | rfl) | rfl
  · exact hSpace
  · exact hTab
  · exact hReturn
  · exact hLine

/- Layout begins with layout only. -/
theorem avoids_run
    {p : Char → Bool}
    {run s : List Char}
    (hFree : (p ' ' || p '\t' || p '\r' || p '\n') = false)
    (hRun : ∀ c ∈ run, Text.isLayout c = true)
    (hRest : run = [] → Avoids p s) :
    Avoids p (run ++ s) := by
  cases run with
  | nil => exact hRest rfl
  | cons c run =>
      rw [List.cons_append, avoids_cons]
      exact false_of_isLayout hFree (hRun c (by simp))

/- All blanks are taken, and nothing behind them. -/
theorem layout_run
    {run rest : List Char}
    (hRun : ∀ c ∈ run, Text.isLayout c = true)
    (hRest : Avoids Text.isLayout rest) :
    layout (run ++ rest) = .ok () rest := by
  simp only [layout, dropWhile_run hRun hRest]

/- The same where at least one blank has to be there. -/
theorem layout1_run
    {run rest : List Char}
    (hRun : ∀ c ∈ run, Text.isLayout c = true)
    (hNonempty : run ≠ [])
    (hRest : Avoids Text.isLayout rest) :
    layout1 (run ++ rest) = .ok () rest := by
  cases run with
  | nil => exact absurd rfl hNonempty
  | cons c run =>
      have hHead : Text.isLayout c = true :=
        hRun c (by simp)
      have hTail : ∀ d ∈ run, Text.isLayout d = true :=
        fun d hMem => hRun d (by simp [hMem])
      simp only [List.cons_append, layout1, hHead, if_true,
        dropWhile_run hTail hRest]

/- Text that begins with no blank is a miss. -/
theorem layout1_misses
    {s : List Char}
    (hHead : Avoids Text.isLayout s) :
    layout1.Misses s := by
  cases s with
  | nil => exact ⟨_, rfl⟩
  | cons c s =>
      have hLayout := (avoids_cons _ c s).mp hHead
      exact ⟨⟨c :: s, .layout⟩, by simp [layout1, hLayout]⟩

------------------------------------------------------------
-- Keywords
------------------------------------------------------------

/- A word is taken whole, whatever follows it. -/
theorem word_append
    (w : String)
    (s : List Char) :
    word w (w.toList ++ s) = .ok () s := by
  have hPrefix : w.toList.isPrefixOf (w.toList ++ s) = true :=
    List.isPrefixOf_iff_prefix.mpr (List.prefix_append _ _)
  have hDrop : (w.toList ++ s).drop w.length = s :=
    List.drop_left' String.length_toList
  simp [word, hPrefix, hDrop]

/- A text that does not begin with the word is a miss. -/
theorem word_misses
    {w : String}
    {s : List Char}
    (hPrefix : ¬ w.toList <+: s) :
    (word w).Misses s := by
  refine ⟨⟨s, .word⟩, ?_⟩
  simp [word, hPrefix]

/- A text does not begin with a word whose letter it avoids. -/
theorem not_prefix_of_avoids
    {p : Char → Bool}
    {w : String}
    {first : Char}
    {others s : List Char}
    (hWord : w.toList = first :: others)
    (hFirst : p first = true)
    (hAvoids : Avoids p s) :
    ¬ w.toList <+: s := by
  rintro ⟨rest, rfl⟩
  rw [hWord, List.cons_append, avoids_cons, hFirst] at hAvoids
  cases hAvoids

/- A word is not read before another first character. -/
theorem word_misses_of_head
    {w : String}
    {first : Char}
    {others s : List Char}
    (hWord : w.toList = first :: others)
    (hHead : Avoids (· == first) s) :
    (word w).Misses s :=
  word_misses (not_prefix_of_avoids (p := (· == first)) hWord
    (beq_self_eq_true first) hHead)

/-
  A name ends where none of its characters follows, and
  nothing is taken there.
-/
theorem boundary_of_avoids
    {s : List Char}
    (hRest : Avoids isNameChar s) :
    boundary s = .ok () s := by
  cases s with
  | nil => rfl
  | cons c s =>
      have hHead := (avoids_cons isNameChar c s).mp hRest
      simp [boundary, hHead]

/- A name that goes on has no end here. -/
theorem boundary_misses
    {c : Char}
    {s : List Char}
    (hHead : isNameChar c = true) :
    boundary.Misses (c :: s) :=
  ⟨⟨c :: s, .boundary⟩, by simp [boundary, hHead]⟩

/- A keyword is a word at the end of a name. -/
theorem keyword_append
    (w : String)
    {s : List Char}
    (hRest : Avoids isNameChar s) :
    keyword w (w.toList ++ s) = .ok () s := by
  unfold keyword
  rw [bind_of_ok (word_append w s)]
  exact boundary_of_avoids hRest

/-
  The first letter is enough to tell that it is another word.
-/
theorem keyword_misses_of_head
    {w : String}
    {first : Char}
    {others s : List Char}
    (hWord : w.toList = first :: others)
    (hHead : Avoids (· == first) s) :
    (keyword w).Misses s := by
  unfold keyword
  exact (word_misses_of_head hWord hHead).bind _

/-
  A keyword is missed before every text whose longest run of
  name characters is another word.
-/
theorem keyword_misses
    {w : String}
    {s : List Char}
    (hWord : ∀ c ∈ w.toList, isNameChar c = true)
    (hOther : s.takeWhile isNameChar ≠ w.toList) :
    (keyword w).Misses s := by
  unfold keyword
  by_cases hPrefix : w.toList <+: s
  · rcases hPrefix with ⟨rest, rfl⟩
    apply misses_bind_of_ok (word_append w rest)
    cases rest with
    | nil =>
        exact absurd (takeWhile_run hWord (avoids_nil _))
          hOther
    | cons c rest =>
        cases hHead : isNameChar c with
        | true => exact boundary_misses hHead
        | false =>
            exact absurd
              (takeWhile_run hWord
                ((avoids_cons _ c rest).mpr hHead))
              hOther
  · exact (word_misses hPrefix).bind _

------------------------------------------------------------
-- Names
------------------------------------------------------------

/- A letter or underscore, then name characters. -/
def isName (x : String) : Bool :=
  match x.toList with
  | [] => false
  | c :: cs => isNameStart c && cs.all isNameChar

theorem isNameChar_of_isNameStart
    {c : Char}
    (hStart : isNameStart c = true) :
    isNameChar c = true := by
  simp only [isNameStart, isNameChar, Char.isAlphanum,
    Bool.or_eq_true] at *
  rcases hStart with hAlpha | hUnderscore
  · exact .inl (.inl hAlpha)
  · exact .inr hUnderscore

/- No name begins with what is neither letter nor underscore. -/
/- The characters of a name, the first one apart. -/
theorem toList_of_isName
    {x : String}
    (hName : isName x = true) :
    ∃ c cs, x.toList = c :: cs ∧ isNameStart c = true ∧
      ∀ d ∈ cs, isNameChar d = true := by
  unfold isName at hName
  split at hName
  · simp at hName
  · next c cs hChars =>
      simp only [Bool.and_eq_true, List.all_eq_true] at hName
      exact ⟨c, cs, hChars, hName.1, hName.2⟩

/- A name has name characters only. -/
theorem isNameChar_of_isName
    {x : String}
    (hName : isName x = true) :
    ∀ c ∈ x.toList, isNameChar c = true := by
  rcases toList_of_isName hName with
    ⟨first, others, hChars, hStart, hOthers⟩
  intro c hMem
  rw [hChars] at hMem
  rcases List.mem_cons.mp hMem with rfl | hMem
  · exact isNameChar_of_isNameStart hStart
  · exact hOthers c hMem

/- A name is taken up to its end. -/
theorem name_append
    {x : String}
    {s : List Char}
    (hName : isName x = true)
    (hRest : Avoids isNameChar s) :
    name (x.toList ++ s) = .ok x s := by
  rcases toList_of_isName hName with
    ⟨c, cs, hChars, hStart, hOthers⟩
  have hBack : String.ofList (c :: cs) = x := by
    rw [← hChars, String.ofList_toList]
  simp only [hChars, List.cons_append, name, hStart, if_true,
    takeWhile_run hOthers hRest, dropWhile_run hOthers hRest,
    hBack]

/- A name is read up to where it cannot go on. -/
theorem name_eq_ok
    {x : String}
    {s rest : List Char} :
    name s = .ok x rest ↔
      isName x = true ∧ Avoids isNameChar rest ∧
        s = x.toList ++ rest := by
  constructor
  · intro hRead
    cases s with
    | nil => cases hRead
    | cons c cs =>
        cases hStart : isNameStart c with
        | false =>
            simp only [name, hStart] at hRead
            cases hRead
        | true =>
            simp only [name, hStart, if_true] at hRead
            cases hRead
            refine ⟨?_, avoids_dropWhile _ _, ?_⟩
            · simp only [isName, String.toList_ofList, hStart,
                Bool.true_and]
              exact List.all_takeWhile
            · rw [String.toList_ofList, List.cons_append,
                List.takeWhile_append_dropWhile]
  · rintro ⟨hName, hRest, rfl⟩
    exact name_append hName hRest

/- No name begins with another character. -/
theorem name_misses
    {s : List Char}
    (hHead : Avoids isNameStart s) :
    name.Misses s := by
  cases s with
  | nil => exact ⟨_, rfl⟩
  | cons c s =>
      have hStart := (avoids_cons isNameStart c s).mp hHead
      exact ⟨⟨c :: s, .name⟩, by simp [name, hStart]⟩

/- Before a name, only the keyword of that name is read. -/
theorem keyword_misses_name
    {w x : String}
    {s : List Char}
    (hWord : w.toList.all isNameChar = true)
    (hName : isName x = true)
    (hRest : Avoids isNameChar s)
    (hNe : x ≠ w) :
    (keyword w).Misses (x.toList ++ s) := by
  apply keyword_misses (List.all_eq_true.mp hWord)
  rw [takeWhile_run (isNameChar_of_isName hName) hRest]
  exact fun hEq => hNe (String.toList_inj.mp hEq)

------------------------------------------------------------
-- Strings
------------------------------------------------------------

/- A text ends at its quote. -/
theorem stringBody_closed
    (quote : Char)
    (rest : List Char) :
    stringBody quote (quote :: rest) = some ([], rest) := by
  rw [stringBody.eq_def]
  simp

/- Any other character stands for itself. -/
theorem stringBody_plain
    {quote c : Char}
    (hQuote : c ≠ quote)
    (hSlash : c ≠ '\x5c')
    (cs : List Char) :
    stringBody quote (c :: cs) =
      (stringBody quote cs).map fun (content, rest) =>
        (c :: content, rest) := by
  rw [stringBody.eq_def]
  simp [hQuote, hSlash]

/- A character behind a backslash stands for what it escapes. -/
theorem stringBody_escaped
    {quote : Char}
    (hQuote : '\x5c' ≠ quote)
    (e : Char)
    (cs : List Char) :
    stringBody quote ('\x5c' :: e :: cs) =
      (stringBody quote cs).map fun (content, rest) =>
        (unescape e :: content, rest) := by
  rw [stringBody.eq_def]
  simp [hQuote]

/- Escaping is undone up to the closing quote. -/
theorem stringBody_escape
    (cs rest : List Char) :
    stringBody '\x22' (Flux.escape cs ++ '\x22' :: rest) =
      some (cs, rest) := by
  have hSlash : '\x5c' ≠ '\x22' := by decide
  fun_induction Flux.escape cs with
  | case1 => exact stringBody_closed _ rest
  | case2 cs ih | case3 cs ih | case4 cs ih | case5 cs ih
  | case6 cs ih =>
      simp [stringBody_escaped hSlash, ih, unescape]
  | case7 cs ih =>
      have hBrace : '\x7b' ≠ '\x22' := by decide
      have hNotSlash : '\x7b' ≠ '\x5c' := by decide
      simp [stringBody_escaped hSlash,
        stringBody_plain hBrace hNotSlash, ih, unescape]
  | case8 c cs hSlash hQuote _ _ _ _ ih =>
      simp [stringBody_plain hQuote hSlash, ih]

/- A quoted text, character by character. -/
theorem toList_quote
    (s : String) :
    (Flux.quote s).toList =
      '\x22' :: (Flux.escape s.toList ++ ['\x22']) := by
  simp [Flux.quote]

/- A quoted text is read back, whatever is in it. -/
theorem stringLiteral_quote
    (s : String)
    (rest : List Char) :
    stringLiteral ((Flux.quote s).toList ++ rest) =
      .ok s rest := by
  have hBody := stringBody_escape s.toList rest
  simp [toList_quote, stringLiteral, hBody]

/- A text in quotes begins with one of the two. -/
theorem stringLiteral_misses
    {s : List Char}
    (hHead : Avoids (fun c => c == '\x22' || c == '\x27') s) :
    stringLiteral.Misses s := by
  cases s with
  | nil => exact ⟨_, rfl⟩
  | cons c s =>
      have hNe := (avoids_cons _ c s).mp hHead
      refine ⟨⟨c :: s, .symbol⟩, ?_⟩
      simp only [stringLiteral, hNe]
      rfl

------------------------------------------------------------
-- Numerals
------------------------------------------------------------

theorem isNameChar_of_isDigit
    {c : Char}
    (hDigit : c.isDigit = true) :
    isNameChar c = true := by
  simp [isNameChar, Char.isAlphanum, hDigit]

/- A name cannot be taken for a number. -/
theorem isDigit_of_isNameStart
    {c : Char}
    (hStart : isNameStart c = true) :
    c.isDigit = false := by
  rw [Bool.eq_false_iff]
  intro hDigit
  have hLetter :
      (decide ('A'.val ≤ c.val ∧ c.val ≤ 'Z'.val)
        || (decide ('a'.val ≤ c.val)
          && decide (c.val ≤ 'z'.val))
        || c == '_') = true := hStart
  have hFigure : (decide ('0'.val ≤ c.val)
      && decide (c.val ≤ '9'.val)) = true := hDigit
  simp only [Bool.or_eq_true, Bool.and_eq_true,
    decide_eq_true_eq, UInt32.le_iff_toNat_le, beq_iff_eq]
    at hLetter hFigure
  rcases hLetter with hAlpha | rfl
  · simp at hAlpha hFigure
    omega
  · exact absurd hDigit (by decide)

/- Where a name cannot go on, neither can a number. -/
theorem avoids_isDigit
    {s : List Char}
    (hRest : Avoids isNameChar s) :
    Avoids Char.isDigit s := by
  intro c hHead
  have hName := hRest c hHead
  cases hDigit : c.isDigit with
  | false => rfl
  | true => simp [isNameChar_of_isDigit hDigit] at hName

theorem toList_ofNat
    (n : Nat) :
    (Numeral.ofNat n).toList = Nat.toDigits 10 n := by
  simp [Numeral.ofNat]

/- A numeral has digits only. -/
theorem isDigit_of_mem_ofNat
    {n : Nat}
    {c : Char}
    (hMem : c ∈ (Numeral.ofNat n).toList) :
    c.isDigit = true := by
  rw [toList_ofNat] at hMem
  exact Nat.isDigit_of_mem_toDigits (by decide) (by decide) hMem

/- A numeral begins with a digit. -/
theorem toList_ofNat_cons
    (n : Nat) :
    ∃ c cs, (Numeral.ofNat n).toList = c :: cs ∧
      c.isDigit = true := by
  cases hChars : (Numeral.ofNat n).toList with
  | nil =>
      rw [toList_ofNat] at hChars
      exact absurd hChars Nat.toDigits_ne_nil
  | cons c cs =>
      refine ⟨c, cs, rfl, ?_⟩
      apply isDigit_of_mem_ofNat (n := n)
      simp [hChars]

end Lexeme

/- Digits, at least one. -/
def Numeral.IsDigits (ds : List Char) : Prop :=
  ds ≠ [] ∧ ∀ c ∈ ds, c.isDigit = true

namespace Lexeme

open Reader Numeral

theorem isDigits_ofNat
    (n : Nat) :
    IsDigits (ofNat n).toList := by
  rcases toList_ofNat_cons n with ⟨c, cs, hChars, _⟩
  refine ⟨?_, fun c hMem => isDigit_of_mem_ofNat hMem⟩
  rw [hChars]
  exact List.cons_ne_nil c cs

/- Digits are taken up to the first other character. -/
theorem digits_run
    {ds s : List Char}
    (hDigits : IsDigits ds)
    (hRest : Avoids Char.isDigit s) :
    digits (ds ++ s) = .ok ds s := by
  have hDrop := dropWhile_run hDigits.2 hRest
  have hTake := takeWhile_run hDigits.2 hRest
  rcases List.exists_cons_of_ne_nil hDigits.1 with
    ⟨c, cs, hChars⟩
  unfold digits
  rw [hTake, hDrop, hChars]

/- Without a digit there is no number. -/
theorem digits_misses
    {s : List Char}
    (hHead : Avoids Char.isDigit s) :
    digits.Misses s := by
  have hTake : s.takeWhile Char.isDigit = [] :=
    @takeWhile_run Char.isDigit [] s (by simp) hHead
  exact ⟨⟨s, .digit⟩, by simp [digits, hTake]⟩

/- A number is read back from its numeral. -/
theorem ofDigits_ofNat
    (n : Nat) :
    Numeral.ofDigits (Numeral.ofNat n).toList = n := by
  rw [toList_ofNat]
  exact Nat.ofDigitChars_ten_toDigits

------------------------------------------------------------
-- Spans
------------------------------------------------------------

/- A machine integer fits. -/
theorem toInt64?_toInt
    (n : Int64) :
    Numeral.toInt64? n.toInt = some n := by
  have hLow := n.le_toInt
  have hHigh := n.toInt_lt
  have hRange : -0x8000000000000000 ≤ n.toInt ∧
      n.toInt ≤ 0x7fffffffffffffff := by
    omega
  simp [Numeral.toInt64?, hRange]

/- A word of letters is not read where no name goes on. -/
theorem word_misses_of_avoids
    {w : String}
    {first : Char}
    {others s : List Char}
    (hWord : w.toList = first :: others)
    (hFirst : isNameChar first = true)
    (hRest : Avoids isNameChar s) :
    (word w).Misses s :=
  word_misses (not_prefix_of_avoids hWord hFirst hRest)

/- Where no name goes on there is no unit of time. -/
theorem unit_misses
    {s : List Char}
    (hRest : Avoids isNameChar s) :
    unit.Misses s := by
  have hMillis : (word "ms").Misses s :=
    word_misses_of_avoids rfl rfl hRest
  have hMicros : (word "us").Misses s :=
    word_misses_of_avoids rfl rfl hRest
  have hSeconds : (word "s").Misses s :=
    word_misses_of_avoids rfl rfl hRest
  have hMinutes : (word "m").Misses s :=
    word_misses_of_avoids rfl rfl hRest
  have hHours : (word "h").Misses s :=
    word_misses_of_avoids rfl rfl hRest
  have hDays : (word "d").Misses s :=
    word_misses_of_avoids rfl rfl hRest
  unfold unit
  exact (hMillis.bind _).orElse <|
    (hMicros.bind _).orElse <|
    (hSeconds.bind _).orElse <|
    (hMinutes.bind _).orElse <|
    (hHours.bind _).orElse (hDays.bind _)

/- The units of time and their microseconds. -/
def units : List (String × Nat) :=
  [("us", 1), ("ms", 1000), ("s", 1000000),
    ("m", 60 * 1000000), ("h", 60 * 60 * 1000000),
    ("d", 24 * 60 * 60 * 1000000)]

/- A unit begins with a letter. -/
theorem units_head
    {w : String}
    {factor : Nat}
    (hUnit : (w, factor) ∈ units) :
    ∃ c cs, w.toList = c :: cs ∧ isNameStart c = true := by
  simp only [units, List.mem_cons, Prod.mk.injEq,
    List.not_mem_nil, or_false] at hUnit
  rcases hUnit with ⟨rfl, _⟩ | ⟨rfl, _⟩ | ⟨rfl, _⟩ | ⟨rfl, _⟩ |
    ⟨rfl, _⟩ | ⟨rfl, _⟩ <;>
    exact ⟨_, _, rfl, rfl⟩

/- A unit is passed over whose word does not stand there. -/
theorem unit_skip
    {w : String}
    {factor : Int}
    {others : Reader Int}
    {s : List Char}
    {reply : Reply Int}
    (hPrefix : ¬ w.toList <+: s)
    (hOthers : others s = reply) :
    ((do word w; return factor) <|> others) s = reply :=
  (orElse_of_misses ((word_misses hPrefix).bind _)).trans hOthers

/- A unit is read where no name goes on. -/
theorem unit_append
    {w : String}
    {factor : Nat}
    {s : List Char}
    (hUnit : (w, factor) ∈ units)
    (hRest : Avoids isNameChar s) :
    unit (w.toList ++ s) = .ok factor s := by
  have hRead : ∀ (v : String) (n : Int),
      (do word v; return n : Reader Int) (v.toList ++ s) =
        .ok n s :=
    fun v n => bind_of_ok (word_append v s)
  -- minutes are not the beginning of milliseconds
  have hMinutes : ¬ "ms".toList <+: "m".toList ++ s := by
    rintro ⟨rest, hAppend⟩
    cases hAppend
    exact absurd ((avoids_cons _ _ _).mp hRest) (by decide)
  simp only [units, List.mem_cons, Prod.mk.injEq,
    List.not_mem_nil, or_false] at hUnit
  unfold unit
  rcases hUnit with ⟨rfl, rfl⟩ | ⟨rfl, rfl⟩ | ⟨rfl, rfl⟩ |
    ⟨rfl, rfl⟩ | ⟨rfl, rfl⟩ | ⟨rfl, rfl⟩
  · exact unit_skip (by simp) <| orElse_of_ok (hRead "us" 1)
  · exact orElse_of_ok (hRead "ms" 1000)
  · exact unit_skip (by simp) <| unit_skip (by simp) <|
      orElse_of_ok (hRead "s" 1000000)
  · exact unit_skip hMinutes <| unit_skip (by simp) <|
      unit_skip (by simp) <|
      orElse_of_ok (hRead "m" (60 * 1000000))
  · exact unit_skip (by simp) <| unit_skip (by simp) <|
      unit_skip (by simp) <| unit_skip (by simp) <|
      orElse_of_ok (hRead "h" (60 * 60 * 1000000))
  · exact unit_skip (by simp) <| unit_skip (by simp) <|
      unit_skip (by simp) <| unit_skip (by simp) <|
      unit_skip (by simp) (hRead "d" (24 * 60 * 60 * 1000000))

/- Digits that fit are an amount. -/
theorem amount_run
    {ds s : List Char}
    {k : Int64}
    (hDigits : IsDigits ds)
    (hFits : toInt64? (ofDigits ds) = some k)
    (hRest : Avoids Char.isDigit s) :
    amount (ds ++ s) = .ok k s :=
  convert_of_ok (digits_run hDigits hRest) hFits

/-
  Digits that are too large for a machine integer are a miss,
  though they were read.
-/
theorem amount_misses_run
    {ds s : List Char}
    (hDigits : IsDigits ds)
    (hPast : toInt64? (ofDigits ds) = none)
    (hRest : Avoids Char.isDigit s) :
    amount.Misses (ds ++ s) :=
  misses_convert_of_none (digits_run hDigits hRest) hPast

/- A unit is no digit. -/
theorem avoids_unit
    {w : String}
    {factor : Nat}
    (hUnit : (w, factor) ∈ units)
    (s : List Char) :
    Avoids Char.isDigit (w.toList ++ s) := by
  rcases units_head hUnit with ⟨c, cs, hChars, hLetter⟩
  rw [hChars]
  exact (avoids_cons _ _ _).mpr (isDigit_of_isNameStart hLetter)

/- Digits and a unit, before their product is converted. -/
theorem product_run
    {ds s : List Char}
    {w : String}
    {factor : Nat}
    {k : Int64}
    (hDigits : IsDigits ds)
    (hUnit : (w, factor) ∈ units)
    (hFits : toInt64? (ofDigits ds) = some k)
    (hRest : Avoids isNameChar s) :
    (do
      let n ← amount
      let factor ← unit
      boundary
      return n.toInt * factor : Reader Int)
        (ds ++ (w.toList ++ s)) =
      .ok (k.toInt * factor) s := by
  rw [bind_of_ok (amount_run hDigits hFits (avoids_unit hUnit s)),
    bind_of_ok (unit_append hUnit hRest),
    bind_of_ok (boundary_of_avoids hRest)]
  rfl

/- Digits and a unit are a span if nothing overflows. -/
theorem span_run
    {ds s : List Char}
    {w : String}
    {factor : Nat}
    {k micros : Int64}
    (hDigits : IsDigits ds)
    (hUnit : (w, factor) ∈ units)
    (hFits : toInt64? (ofDigits ds) = some k)
    (hMicros : toInt64? (k.toInt * factor) = some micros)
    (hRest : Avoids isNameChar s) :
    span (ds ++ (w.toList ++ s)) =
      .ok (.span (Span.ofMicros micros)) s := by
  apply convert_of_ok (product_run hDigits hUnit hFits hRest)
  rw [hMicros]
  rfl

/- They are none if the digits or the product overflow. -/
theorem span_misses_run
    {ds s : List Char}
    {w : String}
    {factor : Nat}
    (hDigits : IsDigits ds)
    (hUnit : (w, factor) ∈ units)
    (hPast : ∀ k, toInt64? (ofDigits ds) = some k →
      toInt64? (k.toInt * factor) = none)
    (hRest : Avoids isNameChar s) :
    span.Misses (ds ++ (w.toList ++ s)) := by
  unfold span
  cases hFits : toInt64? (ofDigits ds) with
  | none =>
      have hAmount :=
        amount_misses_run hDigits hFits (avoids_unit hUnit s)
      exact (hAmount.bind _).convert _
  | some k =>
      apply misses_convert_of_none
        (product_run hDigits hUnit hFits hRest)
      rw [hPast k hFits]
      rfl

/- Whole microseconds are read back from their numeral. -/
theorem span_ofNat
    {n : Int64}
    {s : List Char}
    (hNonneg : 0 ≤ n.toInt)
    (hRest : Avoids isNameChar s) :
    span ((Numeral.ofNat n.toInt.natAbs).toList
        ++ 'u' :: 's' :: s) =
      .ok (.span (Span.ofMicros n)) s := by
  have hUnit : ("us", 1) ∈ units := by simp [units]
  have hFits : toInt64? (ofDigits
      (Numeral.ofNat n.toInt.natAbs).toList) = some n := by
    rw [ofDigits_ofNat, Int.natAbs_of_nonneg hNonneg,
      toInt64?_toInt]
  apply span_run (isDigits_ofNat _) hUnit hFits _ hRest
  rw [Int.natCast_one, Int.mul_one, toInt64?_toInt]

/- Digits without a unit are no span. -/
theorem span_misses_bare
    {ds s : List Char}
    (hDigits : IsDigits ds)
    (hRest : Avoids isNameChar s) :
    span.Misses (ds ++ s) := by
  have hDigit := avoids_isDigit hRest
  unfold span
  apply Misses.convert
  cases hFits : toInt64? (ofDigits ds) with
  | some k =>
      apply misses_bind_of_ok (amount_run hDigits hFits hDigit)
      exact (unit_misses hRest).bind _
  | none =>
      exact (amount_misses_run hDigits hFits hDigit).bind _

theorem span_misses
    {s : List Char}
    (hHead : Avoids Char.isDigit s) :
    span.Misses s :=
  (((digits_misses hHead).convert _).bind _).convert _

------------------------------------------------------------
-- Numbers
------------------------------------------------------------

/- A text does not go on with a fraction. -/
def NoFraction (s : List Char) : Prop :=
  ∀ rest, s = '.' :: rest → Avoids Char.isDigit rest

/- No fraction is read where none follows. -/
theorem fraction_misses
    {s : List Char}
    (hPoint : NoFraction s) :
    Reader.Misses (do symbol '.'; digits) s := by
  cases s with
  | nil => exact (symbol_misses (avoids_nil _)).bind _
  | cons c s =>
      by_cases hDot : c = '.'
      · subst hDot
        apply misses_bind_of_ok (symbol_cons '.' s)
        exact digits_misses (hPoint s rfl)
      · apply Misses.bind
        apply symbol_misses
        simpa using hDot

/- The digits of a whole number, before they are converted. -/
theorem whole_run
    {ds s : List Char}
    (hDigits : IsDigits ds)
    (hRest : Avoids isNameChar s)
    (hPoint : NoFraction s) :
    (do
      let whole ← digits
      let fraction ← Reader.optional (do symbol '.'; digits)
      boundary
      return (whole, fraction) :
        Reader (List Char × Option (List Char))) (ds ++ s) =
      .ok (ds, none) s := by
  rw [bind_of_ok (digits_run hDigits (avoids_isDigit hRest)),
    bind_of_ok (optional_of_misses (fraction_misses hPoint)),
    bind_of_ok (boundary_of_avoids hRest)]
  rfl

/- Digits with no fraction behind them are a whole number. -/
theorem number_run
    {ds s : List Char}
    {v : Value}
    (hDigits : IsDigits ds)
    (hValue : wholeValue? (ofDigits ds) = some v)
    (hRest : Avoids isNameChar s)
    (hPoint : NoFraction s) :
    number (ds ++ s) = .ok v s :=
  convert_of_ok (whole_run hDigits hRest hPoint) hValue

/- A whole number that no value holds is a miss. -/
theorem number_misses_run
    {ds s : List Char}
    (hDigits : IsDigits ds)
    (hPast : wholeValue? (ofDigits ds) = none)
    (hRest : Avoids isNameChar s)
    (hPoint : NoFraction s) :
    number.Misses (ds ++ s) :=
  misses_convert_of_none (whole_run hDigits hRest hPoint) hPast

/- Digits with a letter behind them are no number. -/
theorem number_misses_letter
    {ds s : List Char}
    {c : Char}
    (hDigits : IsDigits ds)
    (hLetter : isNameStart c = true) :
    number.Misses (ds ++ c :: s) := by
  have hDigit : Avoids Char.isDigit (c :: s) :=
    (avoids_cons _ c s).mpr (isDigit_of_isNameStart hLetter)
  have hPoint : NoFraction (c :: s) := by
    rintro rest ⟨⟩
    exact absurd hLetter (by decide)
  unfold number
  apply Misses.convert
  apply misses_bind_of_ok (digits_run hDigits hDigit)
  apply misses_bind_of_ok
    (optional_of_misses (fraction_misses hPoint))
  apply Misses.bind
  exact boundary_misses (isNameChar_of_isNameStart hLetter)

theorem number_misses
    {s : List Char}
    (hHead : Avoids Char.isDigit s) :
    number.Misses s :=
  ((digits_misses hHead).bind _).convert _

------------------------------------------------------------
-- Times
------------------------------------------------------------

/- A name that no parenthesis follows begins no time. -/
theorem timestamp_misses_name
    {x : String}
    {s : List Char}
    (hName : isName x = true)
    (hRest : Avoids isNameChar s)
    (hCall : Avoids (· == '(') (s.dropWhile Text.isLayout)) :
    timestamp.Misses (x.toList ++ s) := by
  unfold timestamp
  apply Misses.convert
  by_cases hEq : x = "datetime"
  · subst hEq
    apply misses_bind_of_ok (keyword_append _ hRest)
    apply misses_bind_of_ok rfl
    exact (symbol_misses hCall).bind _
  · apply Misses.bind
    exact keyword_misses_name rfl hName hRest hEq

/- A timestamp begins with the letter of its name. -/
theorem timestamp_misses
    {s : List Char}
    (hHead : Avoids (· == 'd') s) :
    timestamp.Misses s := by
  have hWord : (word "datetime").Misses s :=
    word_misses_of_head rfl hHead
  unfold timestamp keyword
  exact ((hWord.bind _).bind _).convert _

end Lexeme

end TypedFlux
