import TypedFlux.Proofs.Syntax.Precedence

/-
  Primaries and accessors, read back from their spelling.

  Whatever stands in brackets is read by a reader of its own.
  It is assumed to read back every expression shorter than a
  bound, and the statements here are about texts within that
  bound.

  Key definitions include:
    * `Grammar.ReadsInside`
    * `Grammar.atom`

  Key theorems include:
    * `Grammar.enclosed_items`
    * `Grammar.primary_literal`, `Grammar.primary_ident`
    * `Grammar.accessor_field`, `Grammar.accessor_call`
    * `Grammar.accessed_of_primary`
-/

------------------------------------------------------------
-- Brackets
------------------------------------------------------------

namespace TypedFlux

namespace Grammar

open Lexeme Reader

/-
  A reader of expressions reads every printed expression
  shorter than a bound, and none where a bracket closes.
-/
structure ReadsInside
    (pad : Pad)
    (inner : Reader Node)
    (bound : Nat) : Prop where
  reads : ∀ (n : Node) (rest : List Char),
    n.isCanonical Value.isPlain = true →
    (n.bare pad).length < bound → Ends 0 rest →
      inner (n.bare pad ++ rest) = .ok n rest
  misses : ∀ (c : Char) (rest : List Char),
    c = ')' ∨ c = ']' → inner.Misses (c :: rest)

/- What stands in brackets is read without its padding. -/
theorem enclosed_bracket
    {α : Type}
    {content : Reader α}
    {value : α}
    {pad : Pad}
    {opening closing : Char}
    {text rest : List Char}
    (hClosing : Text.isLayout closing = false)
    (hFirst : Avoids Text.isLayout
      (text ++ (pad.chars ++ closing :: rest)))
    (hRead : content (text ++ (pad.chars ++ closing :: rest)) =
      .ok value (pad.chars ++ closing :: rest)) :
    enclosed opening closing content
        (Node.bracket pad opening closing text ++ rest) =
      .ok value rest := by
  have hText : Node.bracket pad opening closing text ++ rest =
      opening :: (pad.chars
        ++ (text ++ (pad.chars ++ closing :: rest))) := by
    simp [Node.bracket]
  have hLayout := layout_run pad.layout
    ((avoids_cons _ closing rest).mpr hClosing)
  unfold enclosed
  rw [hText, bind_of_ok (symbol_cons opening _),
    bind_of_ok (layout_run pad.layout hFirst),
    bind_of_ok hRead, bind_of_ok hLayout,
    bind_of_ok (symbol_cons closing rest), pure_apply]

/- With nothing inside, all layout comes before the content. -/
theorem enclosed_bracket_nil
    {α : Type}
    {content : Reader α}
    {value : α}
    {pad : Pad}
    {opening closing : Char}
    {rest : List Char}
    (hClosing : Text.isLayout closing = false)
    (hRead : content (closing :: rest) =
      .ok value (closing :: rest)) :
    enclosed opening closing content
        (Node.bracket pad opening closing [] ++ rest) =
      .ok value rest := by
  have hText : Node.bracket pad opening closing [] ++ rest =
      opening :: ((pad.chars ++ pad.chars)
        ++ closing :: rest) := by
    simp [Node.bracket]
  have hPads : ∀ c ∈ pad.chars ++ pad.chars,
      Text.isLayout c = true := by
    intro c hMem
    rcases List.mem_append.mp hMem with hMem | hMem
    · exact pad.layout c hMem
    · exact pad.layout c hMem
  have hRest : Avoids Text.isLayout (closing :: rest) :=
    (avoids_cons _ closing rest).mpr hClosing
  have hNone : layout (closing :: rest) =
      .ok () (closing :: rest) := by
    simp [layout, hClosing]
  unfold enclosed
  rw [hText, bind_of_ok (symbol_cons opening _),
    bind_of_ok (layout_run hPads hRest), bind_of_ok hRead,
    bind_of_ok hNone, bind_of_ok (symbol_cons closing rest),
    pure_apply]

theorem enclosed_misses
    {α : Type}
    {opening : Char}
    {s : List Char}
    (hHead : Avoids (· == opening) s)
    (closing : Char)
    (content : Reader α) :
    (enclosed opening closing content).Misses s := by
  unfold enclosed
  exact (symbol_misses hHead).bind _

------------------------------------------------------------
-- Lists
------------------------------------------------------------

/- A comma is read with the padding around it. -/
theorem comma_append
    (pad : Pad)
    {s : List Char}
    (hFirst : Avoids Text.isLayout s) :
    comma (pad.chars ++ ',' :: (pad.chars ++ s)) =
      .ok () s := by
  have hBefore := layout_run pad.layout
    ((avoids_cons Text.isLayout ',' (pad.chars ++ s)).mpr rfl)
  unfold comma
  rw [bind_of_ok hBefore, bind_of_ok (symbol_cons ',' _)]
  exact layout_run pad.layout hFirst

/- Another character behind the padding is no comma. -/
theorem comma_misses
    {run s : List Char}
    {c : Char}
    (hRun : ∀ d ∈ run, Text.isLayout d = true)
    (hLayout : Text.isLayout c = false)
    (hComma : c ≠ ',') :
    comma.Misses (run ++ c :: s) := by
  have hBefore := layout_run hRun
    ((avoids_cons Text.isLayout c s).mpr hLayout)
  unfold comma
  apply misses_bind_of_ok hBefore
  apply Misses.bind
  apply symbol_misses
  simpa using hComma

theorem isLayout_closing
    {c : Char}
    (hClosing : c = ')' ∨ c = ']') :
    Text.isLayout c = false := by
  rcases hClosing with rfl | rfl <;> rfl

/- Further items end the item before them. -/
theorem ends_moreItems
    (pad : Pad)
    {closing : Char}
    (hClosing : closing = ')' ∨ closing = ']')
    (ns : List Node)
    (rest : List Char) :
    Ends 0 (Node.moreItems pad ns
      ++ (pad.chars ++ closing :: rest)) := by
  cases ns with
  | nil =>
      rw [Node.moreItems, List.nil_append]
      apply ends_closing pad
      rcases hClosing with rfl | rfl
      · exact .inl rfl
      · exact .inr (.inl rfl)
  | cons n ns =>
      rw [Node.moreItems, List.append_assoc, List.append_assoc]
      exact ends_closing pad (.inr (.inr rfl)) 0 _

/- The further items of a list, up to its bracket. -/
theorem sepTail_moreItems
    {pad : Pad}
    {inner : Reader Node}
    {bound : Nat}
    (hInner : ReadsInside pad inner bound)
    {closing : Char}
    (hClosing : closing = ')' ∨ closing = ']')
    (rest : List Char)
    (ns : List Node)
    (hCanonical :
      Node.areCanonical Value.isPlain ns = true)
    (hFits : (Node.moreItems pad ns).length ≤ bound) :
    sepTail inner comma
        (Node.moreItems pad ns
          ++ (pad.chars ++ closing :: rest)) =
      .ok ns (pad.chars ++ closing :: rest) := by
  induction ns with
  | nil =>
      apply sepTail_of_misses
      apply comma_misses pad.layout (isLayout_closing hClosing)
      rcases hClosing with rfl | rfl <;> decide
  | cons n ns ih =>
      simp only [Node.areCanonical, Bool.and_eq_true]
        at hCanonical
      simp only [Node.moreItems, List.length_append,
        List.length_cons] at hFits
      have hEnds := ends_moreItems pad hClosing ns rest
      have hItem := hInner.reads n _ hCanonical.1
        (by omega) hEnds
      have hFirst := (Node.leads_bare pad n
        hCanonical.1).append (Node.moreItems pad ns
          ++ (pad.chars ++ closing :: rest))
      have hComma := comma_append pad hFirst.avoids_layout
      have hText :
          Node.moreItems pad (n :: ns)
              ++ (pad.chars ++ closing :: rest) =
            pad.chars ++ ',' :: (pad.chars
              ++ (n.bare pad ++ (Node.moreItems pad ns
                ++ (pad.chars ++ closing :: rest)))) := by
        simp [Node.moreItems]
      rw [hText, sepTail_of_ok hComma hItem (by simp; omega),
        ih hCanonical.2 (by omega)]
      rfl

/- A bracketed list is read back. -/
theorem enclosed_bare
    {pad : Pad}
    {inner : Reader Node}
    {bound : Nat}
    (hInner : ReadsInside pad inner bound)
    (opening : Char)
    {closing : Char}
    (hClosing : closing = ')' ∨ closing = ']')
    (rest : List Char)
    {n : Node}
    (hCanonical : n.isCanonical Value.isPlain = true)
    (hFits : (n.bare pad).length < bound) :
    enclosed opening closing inner
        (Node.bracket pad opening closing (n.bare pad)
          ++ rest) =
      .ok n rest := by
  have hEnds : Ends 0 (pad.chars ++ closing :: rest) := by
    rcases hClosing with rfl | rfl
    · exact ends_closing pad (.inl rfl) 0 rest
    · exact ends_closing pad (.inr (.inl rfl)) 0 rest
  have hFirst := (Node.leads_bare pad n
    hCanonical).append (pad.chars ++ closing :: rest)
  apply enclosed_bracket (isLayout_closing hClosing)
    hFirst.avoids_layout
  exact hInner.reads n _ hCanonical hFits hEnds

/- All items of a list in brackets, also if there are none. -/
theorem enclosed_items
    {pad : Pad}
    {inner : Reader Node}
    {bound : Nat}
    (hInner : ReadsInside pad inner bound)
    (opening : Char)
    {closing : Char}
    (hClosing : closing = ')' ∨ closing = ']')
    (rest : List Char)
    {ns : List Node}
    (hCanonical :
      Node.areCanonical Value.isPlain ns = true)
    (hFits : (Node.items pad ns).length < bound) :
    enclosed opening closing (sepBy inner comma)
        (Node.bracket pad opening closing (Node.items pad ns)
          ++ rest) =
      .ok ns rest := by
  cases ns with
  | nil =>
      apply enclosed_bracket_nil (isLayout_closing hClosing)
      exact sepBy_of_misses
        (hInner.misses closing rest hClosing)
  | cons n ns =>
      simp only [Node.areCanonical, Bool.and_eq_true]
        at hCanonical
      simp only [Node.items, List.length_append] at hFits
      have hItem := hInner.reads n _ hCanonical.1 (by omega)
        (ends_moreItems pad hClosing ns rest)
      have hFirst := (Node.leads_bare pad n
        hCanonical.1).append (Node.moreItems pad ns
          ++ (pad.chars ++ closing :: rest))
      apply enclosed_bracket (isLayout_closing hClosing)
      · rw [Node.items, List.append_assoc]
        exact hFirst.avoids_layout
      · rw [Node.items, List.append_assoc, sepBy_of_ok hItem,
          sepTail_moreItems hInner hClosing rest ns
            hCanonical.2 (by omega)]
        rfl

end Grammar

end TypedFlux

------------------------------------------------------------
-- Primaries
------------------------------------------------------------

namespace TypedFlux

namespace Grammar

open Lexeme Reader

/- Truth values and names. -/
def wordPrimary : Reader Node :=
  (do keyword "true"; return .literal (.bool true))
    <|> (do keyword "false"; return .literal (.bool false))
    <|> (do let x ← name; return .ident x)

/- Spans, numbers, strings and words. -/
def plainPrimary : Reader Node :=
  (do let v ← span; return .literal v)
    <|> (do let v ← number; return .literal v)
    <|> (do let s ← stringLiteral; return .literal (.string s))
    <|> wordPrimary

/- The primaries without brackets. -/
def atom : Reader Node :=
  (do let v ← timestamp; return .literal v) <|> plainPrimary

/- What is no span, number or string and begins no word. -/
theorem plainPrimary_misses
    {s : List Char}
    (hSpan : span.Misses s)
    (hNumber : number.Misses s)
    (hQuote : Avoids (fun c => c == '\x22' || c == '\x27') s)
    (hStart : Avoids isNameStart s) :
    plainPrimary.Misses s := by
  have hLetter : ∀ d : Char, isNameStart d = true →
      Avoids (· == d) s := by
    intro d hLetter c hHead
    rw [beq_eq_false_iff_ne]
    exact (ne_of_class hLetter (hStart c hHead)).symm
  have hTrue : (keyword "true").Misses s :=
    keyword_misses_of_head rfl (hLetter 't' rfl)
  have hFalse : (keyword "false").Misses s :=
    keyword_misses_of_head rfl (hLetter 'f' rfl)
  have hWord : wordPrimary.Misses s :=
    (hTrue.bind _).orElse <| (hFalse.bind _).orElse <|
      (name_misses hStart).bind _
  exact (hSpan.bind _).orElse <| (hNumber.bind _).orElse <|
    ((stringLiteral_misses hQuote).bind _).orElse hWord

/- Without a bracket in front it is an atom. -/
theorem primary_of_avoids
    {s : List Char}
    (hParen : Avoids (· == '(') s)
    (hSquare : Avoids (· == '[') s)
    (inner : Reader Node) :
    primary inner s = atom s := by
  unfold primary
  rw [orElse_of_misses (enclosed_misses hParen ')' inner),
    orElse_of_misses ((enclosed_misses hSquare ']' _).bind _)]
  rfl

/- Parentheses around an expression are not kept. -/
theorem primary_paren
    {pad : Pad}
    {inner : Reader Node}
    {bound : Nat}
    (hInner : ReadsInside pad inner bound)
    {n : Node}
    (hCanonical : n.isCanonical Value.isPlain = true)
    (hFits : (n.bare pad).length < bound)
    (rest : List Char) :
    primary inner
        (Node.bracket pad '(' ')' (n.bare pad) ++ rest) =
      .ok n rest := by
  unfold primary
  apply orElse_of_ok
  exact enclosed_bare hInner '(' (.inl rfl) rest hCanonical
    hFits

/- Brackets around items are an array. -/
theorem primary_array
    {pad : Pad}
    {inner : Reader Node}
    {bound : Nat}
    (hInner : ReadsInside pad inner bound)
    {ns : List Node}
    (hCanonical :
      Node.areCanonical Value.isPlain ns = true)
    (hFits : (Node.items pad ns).length < bound)
    (rest : List Char) :
    primary inner
        (Node.bracket pad '[' ']' (Node.items pad ns)
          ++ rest) =
      .ok (.array ns) rest := by
  have hItems := enclosed_items hInner '[' (.inr rfl) rest
    hCanonical hFits
  have hParen : Avoids (· == '(')
      (Node.bracket pad '[' ']' (Node.items pad ns)
        ++ rest) :=
    (avoids_cons _ _ _).mpr rfl
  unfold primary
  rw [orElse_of_misses (enclosed_misses hParen ')' inner)]
  apply orElse_of_ok
  rw [bind_of_ok hItems, pure_apply]

/- Digits begin with a digit. -/
theorem avoids_digits
    {p : Char → Bool}
    (hNone : ∀ c : Char, c.isDigit = true → p c = false)
    {ds : List Char}
    (hDigits : Numeral.IsDigits ds)
    (s : List Char) :
    Avoids p (ds ++ s) := by
  rcases List.exists_cons_of_ne_nil hDigits.1 with
    ⟨c, cs, rfl⟩
  exact (avoids_cons p c (cs ++ s)).mpr
    (hNone c (hDigits.2 c List.mem_cons_self))

/- Digits begin neither a bracket nor a time. -/
theorem primary_digits
    (inner : Reader Node)
    {ds : List Char}
    (hDigits : Numeral.IsDigits ds)
    (s : List Char) :
    primary inner (ds ++ s) = plainPrimary (ds ++ s) := by
  have hOther : ∀ d : Char, d.isDigit = false →
      Avoids (· == d) (ds ++ s) := by
    intro d hNoDigit
    refine avoids_digits ?_ hDigits s
    intro c hDigit
    rw [beq_eq_false_iff_ne]
    exact ne_of_class hDigit hNoDigit
  have hTime := timestamp_misses (hOther 'd' rfl)
  rw [primary_of_avoids (hOther '(' rfl) (hOther '[' rfl)]
  unfold atom
  rw [orElse_of_misses (hTime.bind _)]

/- A whole number that fits is read where it ends. -/
theorem primary_of_wholeValue
    {ds s : List Char}
    {v : Value}
    (hDigits : Numeral.IsDigits ds)
    (hRest : Avoids isNameChar s)
    (hPoint : NoFraction s)
    (hValue : wholeValue? (Numeral.ofDigits ds) = some v)
    (inner : Reader Node) :
    primary inner (ds ++ s) = .ok (.literal v) s := by
  have hSpan := span_misses_bare hDigits hRest
  have hNumber := number_run hDigits hValue hRest hPoint
  rw [primary_digits inner hDigits s]
  unfold plainPrimary
  rw [orElse_of_misses (hSpan.bind _)]
  apply orElse_of_ok
  rw [bind_of_ok hNumber, pure_apply]

/- Digits with a unit are one literal, not a number. -/
theorem primary_of_span
    {ds s rest : List Char}
    {v : Value}
    (hDigits : Numeral.IsDigits ds)
    (hSpan : span (ds ++ s) = .ok v rest)
    (inner : Reader Node) :
    primary inner (ds ++ s) = .ok (.literal v) rest := by
  rw [primary_digits inner hDigits s]
  unfold plainPrimary
  apply orElse_of_ok
  rw [bind_of_ok hSpan, pure_apply]

/- A letter begins neither a bracket, a number nor a string. -/
theorem atom_of_letter
    {c : Char}
    {s : List Char}
    (hLetter : isNameStart c = true)
    (hTime : timestamp.Misses (c :: s)) :
    atom (c :: s) = wordPrimary (c :: s) := by
  have hDigit : Avoids Char.isDigit (c :: s) :=
    (avoids_cons _ c s).mpr (isDigit_of_isNameStart hLetter)
  have hQuote : Avoids (fun c => c == '\x22' || c == '\x27')
      (c :: s) := by
    rw [avoids_cons, Bool.eq_false_iff]
    intro hQuote
    simp only [Bool.or_eq_true, beq_iff_eq] at hQuote
    rcases hQuote with rfl | rfl <;>
      simp [isNameStart] at hLetter
  unfold atom plainPrimary
  rw [orElse_of_misses (hTime.bind _),
    orElse_of_misses ((span_misses hDigit).bind _),
    orElse_of_misses ((number_misses hDigit).bind _),
    orElse_of_misses ((stringLiteral_misses hQuote).bind _)]

/- A primary that begins with a letter is a word. -/
theorem primary_of_letter
    {c : Char}
    {s : List Char}
    (hLetter : isNameStart c = true)
    (hTime : timestamp.Misses (c :: s))
    (inner : Reader Node) :
    primary inner (c :: s) = wordPrimary (c :: s) := by
  have hOther : ∀ d, isNameStart d = false →
      Avoids (· == d) (c :: s) := by
    intro d hStart
    rw [avoids_cons, beq_eq_false_iff_ne]
    exact ne_of_class hLetter hStart
  rw [primary_of_avoids (hOther '(' rfl) (hOther '[' rfl),
    atom_of_letter hLetter hTime]

/- A name is read back where no call can follow. -/
theorem primary_ident
    {x : String}
    {rest : List Char}
    (hName : isName x = true)
    (hTrue : x ≠ "true")
    (hFalse : x ≠ "false")
    (hBreaks : Breaks rest)
    (inner : Reader Node) :
    primary inner (x.toList ++ rest) =
      .ok (.ident x) rest := by
  have hTime := timestamp_misses_name hName hBreaks.name
    hBreaks.call
  have hNotTrue : (keyword "true").Misses (x.toList ++ rest) :=
    keyword_misses_name rfl hName hBreaks.name hTrue
  have hNotFalse :
      (keyword "false").Misses (x.toList ++ rest) :=
    keyword_misses_name rfl hName hBreaks.name hFalse
  have hRead := name_append hName hBreaks.name
  rcases toList_of_isName hName with
    ⟨c, cs, hChars, hLetter, _⟩
  rw [hChars, List.cons_append] at hTime hRead ⊢
  rw [hChars, List.cons_append] at hNotTrue hNotFalse
  rw [primary_of_letter hLetter hTime]
  unfold wordPrimary
  rw [orElse_of_misses (hNotTrue.bind _),
    orElse_of_misses (hNotFalse.bind _), bind_of_ok hRead,
    pure_apply]

/- A literal is read back where no name goes on. -/
theorem primary_literal
    {v : Value}
    {rest : List Char}
    (hPlain : v.isPlain = true)
    (hBreaks : Breaks rest)
    (inner : Reader Node) :
    primary inner (v.print.toList ++ rest) =
      .ok (.literal v) rest := by
  cases v with
  | bool b =>
      cases b with
      | true =>
          change primary inner ("true".toList ++ rest) = _
          have hTime :
              timestamp.Misses ("true".toList ++ rest) :=
            timestamp_misses ((avoids_cons _ _ _).mpr rfl)
          refine (primary_of_letter rfl hTime inner).trans ?_
          apply orElse_of_ok
          exact bind_of_ok (keyword_append "true" hBreaks.name)
      | false =>
          change primary inner ("false".toList ++ rest) = _
          have hTime :
              timestamp.Misses ("false".toList ++ rest) :=
            timestamp_misses ((avoids_cons _ _ _).mpr rfl)
          have hTrue :
              (keyword "true").Misses ("false".toList ++ rest) :=
            keyword_misses_name rfl rfl hBreaks.name
              (by decide)
          refine (primary_of_letter rfl hTime inner).trans ?_
          refine (orElse_of_misses (hTrue.bind _)).trans ?_
          apply orElse_of_ok
          exact bind_of_ok (keyword_append "false" hBreaks.name)
  | int n =>
      have hNonneg : 0 ≤ n.toInt := by
        simpa [Value.isPlain] using hPlain
      have hHigh := n.toInt_lt
      have hSmall : n.toInt.natAbs ≤ 0x7fffffffffffffff := by
        omega
      have hSame : Int64.ofNat n.toInt.natAbs = n := by
        rw [← Int64.ofInt_eq_ofNat,
          Int.natAbs_of_nonneg hNonneg, Int64.ofInt_toInt]
      have hValue : wholeValue? n.toInt.natAbs =
          some (.int n) := by
        simp [wholeValue?, hSmall, hSame]
      rw [Value.print_int hNonneg]
      apply primary_of_wholeValue (isDigits_ofNat _)
        hBreaks.name hBreaks.point
      rw [ofDigits_ofNat, hValue]
  | uint n =>
      have hLarge : 0x7fffffffffffffff < n.toNat := by
        simpa [Value.isPlain] using hPlain
      have hHigh := n.toNat_lt
      have hValue : wholeValue? n.toNat = some (.uint n) := by
        have hTop : n.toNat ≤ 0xffffffffffffffff := by omega
        simp [wholeValue?, Nat.not_le.mpr hLarge, hTop]
      rw [Value.print_uint]
      apply primary_of_wholeValue (isDigits_ofNat _)
        hBreaks.name hBreaks.point
      rw [ofDigits_ofNat, hValue]
  | string s =>
      have hRead := stringLiteral_quote s rest
      have hHead : ∀ p : Char → Bool, p '\x22' = false →
          Avoids p ((Flux.quote s).toList ++ rest) := by
        intro p hQuote
        rw [toList_quote]
        exact (avoids_cons _ _ _).mpr hQuote
      have hTime := timestamp_misses (hHead (· == 'd') rfl)
      change primary inner ((Flux.quote s).toList ++ rest) = _
      rw [primary_of_avoids (hHead _ rfl) (hHead _ rfl)]
      unfold atom plainPrimary
      rw [orElse_of_misses (hTime.bind _),
        orElse_of_misses ((span_misses (hHead _ rfl)).bind _),
        orElse_of_misses ((number_misses (hHead _ rfl)).bind _)]
      apply orElse_of_ok
      rw [bind_of_ok hRead, pure_apply]
  | span d =>
      rcases Value.span_of_isPlain hPlain with
        ⟨n, hNonneg, rfl⟩
      have hRead := span_ofNat hNonneg hBreaks.name
      rw [Value.print_span hNonneg, List.append_assoc]
      exact primary_of_span (isDigits_ofNat _) hRead inner
  | float x => simp [Value.isPlain] at hPlain
  | time t => simp [Value.isPlain] at hPlain
  | array items => simp [Value.isPlain] at hPlain
  | other s => simp [Value.isPlain] at hPlain

------------------------------------------------------------
-- Accessors
------------------------------------------------------------

/- Where no call can follow, no parenthesis opens at once. -/
theorem Breaks.paren
    {rest : List Char}
    (hBreaks : Breaks rest) :
    Avoids (· == '(') rest := by
  cases rest with
  | nil => exact avoids_nil _
  | cons c rest =>
      rw [avoids_cons, beq_eq_false_iff_ne]
      rintro rfl
      have hCall := hBreaks.call
      rw [List.dropWhile_cons_of_neg (by decide)] at hCall
      exact absurd hCall (by simp)

/- A member whose name is not followed by arguments. -/
theorem accessor_field
    {member : String}
    {rest : List Char}
    (hName : isName member = true)
    (hBreaks : Breaks rest)
    (inner : Reader Node) :
    accessor inner ('.' :: (member.toList ++ rest)) =
      .ok (.field member) rest := by
  have hArgs : (arguments inner).Misses rest :=
    enclosed_misses hBreaks.paren ')' _
  apply orElse_of_ok
  rw [bind_of_ok (symbol_cons '.' _),
    bind_of_ok (name_append hName hBreaks.name),
    bind_of_ok (optional_of_misses hArgs)]
  rfl

/- A name with arguments behind it is a call. -/
theorem accessor_call
    {pad : Pad}
    {inner : Reader Node}
    {bound : Nat}
    {method : String}
    {args : List Node}
    (hInner : ReadsInside pad inner bound)
    (hName : isName method = true)
    (hArgs : Node.areCanonical Value.isPlain args = true)
    (hFits : (Node.items pad args).length < bound)
    (rest : List Char) :
    accessor inner ('.' :: (method.toList ++
        (Node.bracket pad '(' ')' (Node.items pad args) ++
          rest))) =
      .ok (.call method args) rest := by
  have hRead : arguments inner
      (Node.bracket pad '(' ')' (Node.items pad args) ++ rest) =
        .ok args rest :=
    enclosed_items hInner '(' (.inl rfl) rest hArgs hFits
  have hStop : Avoids isNameChar
      (Node.bracket pad '(' ')' (Node.items pad args) ++
        rest) :=
    (avoids_cons _ '(' _).mpr rfl
  apply orElse_of_ok
  rw [bind_of_ok (symbol_cons '.' _),
    bind_of_ok (name_append hName hStop),
    bind_of_ok (optional_of_ok hRead)]
  rfl

/- A key stands in brackets. -/
theorem accessor_index
    {pad : Pad}
    {inner : Reader Node}
    {bound : Nat}
    {key : Node}
    (hInner : ReadsInside pad inner bound)
    (hKey : key.isCanonical Value.isPlain = true)
    (hFits : (key.bare pad).length < bound)
    (rest : List Char) :
    accessor inner
        (Node.bracket pad '[' ']' (key.bare pad) ++ rest) =
      .ok (.index key) rest := by
  have hDot : (symbol '.').Misses
      (Node.bracket pad '[' ']' (key.bare pad) ++ rest) :=
    symbol_misses ((avoids_cons _ '[' _).mpr rfl)
  have hRead := enclosed_bare hInner '[' (.inr rfl) rest hKey
    hFits
  unfold accessor
  rw [orElse_of_misses (hDot.bind _), bind_of_ok hRead,
    pure_apply]

/- Accessors begin with a dot or a bracket. -/
theorem accessor_misses
    {s : List Char}
    (hDot : Avoids (· == '.') s)
    (hSquare : Avoids (· == '[') s)
    (inner : Reader Node) :
    (accessor inner).Misses s :=
  ((symbol_misses hDot).bind _).orElse
    ((enclosed_misses hSquare ']' inner).bind _)

/- Put the accessors of a text behind an expression. -/
def accesses
    (inner : Reader Node)
    (node : Node)
    (s : List Char) : Reply Node :=
  (Reader.many (accessor inner) s).map
    fun accessors => accessors.foldl Accessor.apply node

/- Accessors follow a primary expression. -/
theorem accessed_of_primary
    {inner : Reader Node}
    {node : Node}
    {s rest : List Char}
    (hPrimary : primary inner s = .ok node rest) :
    accessed inner s = accesses inner node rest := by
  unfold accessed accesses
  rw [bind_of_ok hPrimary]
  exact bind_pure_eq_map _ _ rest

/- One more accessor, applied to all before it. -/
theorem accesses_of_ok
    {inner : Reader Node}
    {a : Accessor}
    {s rest : List Char}
    (hRead : accessor inner s = .ok a rest)
    (hShorter : rest.length < s.length)
    (node : Node) :
    accesses inner node s =
      accesses inner (Accessor.apply node a) rest := by
  unfold accesses
  rw [many_of_ok hRead hShorter]
  cases Reader.many (accessor inner) rest with
  | ok accessors rest => rfl
  | miss fault => rfl
  | cut fault => rfl

/- An expression ends where no accessor follows. -/
theorem accesses_of_misses
    {inner : Reader Node}
    {s : List Char}
    (hMiss : (accessor inner).Misses s)
    (node : Node) :
    accesses inner node s = .ok node s := by
  unfold accesses
  rw [many_of_misses hMiss]
  rfl

end Grammar

end TypedFlux
