import TypedFlux.Syntax.Reader
import TypedFlux.Syntax.Tree
import TypedFlux.Text.Blank

/-
  The words of a query: symbols, keywords, names and literals.

  Names and keywords are made of ASCII letters, digits and the
  underscore.

  Key definitions include:
    * `Lexeme.symbol`, `Lexeme.word`, `Lexeme.keyword`
    * `Lexeme.layout`, `Lexeme.layout1`
    * `Lexeme.name`
    * `Lexeme.stringLiteral`
    * `Lexeme.span`
    * `Lexeme.number`
    * `Lexeme.timestamp`
-/

namespace TypedFlux

namespace Lexeme

------------------------------------------------------------
-- Symbols and Keywords
------------------------------------------------------------

/- One given character. -/
def symbol (c : Char) : Reader Unit
  | [] => .miss ⟨[], .symbol⟩
  | d :: rest =>
      if d == c then .ok () rest else .miss ⟨d :: rest, .symbol⟩

/- The characters of a word. -/
def word (w : String) : Reader Unit :=
  fun s =>
    if w.toList.isPrefixOf s then .ok () (s.drop w.length)
    else .miss ⟨s, .word⟩

/- Any amount of layout. -/
def layout : Reader Unit :=
  fun s => .ok () (s.dropWhile Text.isLayout)

/- At least one character of layout. -/
def layout1 : Reader Unit
  | [] => .miss ⟨[], .layout⟩
  | c :: rest =>
      if Text.isLayout c then
        .ok () (rest.dropWhile Text.isLayout)
      else .miss ⟨c :: rest, .layout⟩

/- A character that can begin a name. -/
def isNameStart (c : Char) : Bool :=
  c.isAlpha || c == '_'

/- A character that can go on in a name. -/
def isNameChar (c : Char) : Bool :=
  c.isAlphanum || c == '_'

/- The end of a word: no character of a name follows. -/
def boundary : Reader Unit
  | [] => .ok () []
  | c :: rest =>
      if isNameChar c then .miss ⟨c :: rest, .boundary⟩
      else .ok () (c :: rest)

/- A whole word. -/
def keyword (w : String) : Reader Unit := do
  word w
  boundary

/- A name. -/
def name : Reader String
  | [] => .miss ⟨[], .name⟩
  | c :: rest =>
      if isNameStart c then
        .ok (String.ofList (c :: rest.takeWhile isNameChar))
          (rest.dropWhile isNameChar)
      else .miss ⟨c :: rest, .name⟩

------------------------------------------------------------
-- Strings
------------------------------------------------------------

/- The character that a letter behind a backslash stands for. -/
def unescape : Char → Char
  | 'n' => '\n'
  | 'r' => '\r'
  | 't' => '\t'
  | c => c

/- The content of a string up to its quote, and the rest. -/
def stringBody (quote : Char) :
    List Char → Option (List Char × List Char)
  | [] => none
  | c :: cs =>
      if c == quote then some ([], cs)
      else if c == '\x5c' then
        match cs with
        | [] => none
        | e :: cs =>
            (stringBody quote cs).map fun (content, rest) =>
              (unescape e :: content, rest)
      else
        (stringBody quote cs).map fun (content, rest) =>
          (c :: content, rest)

/-
  A string between double quotes or apostrophes.  One without
  an end is a final fault.
-/
def stringLiteral : Reader String
  | [] => .miss ⟨[], .symbol⟩
  | c :: rest =>
      if c == '\x22' || c == '\x27' then
        match stringBody c rest with
        | some (content, rest) =>
            .ok (String.ofList content) rest
        | none => .cut ⟨c :: rest, .symbol⟩
      else .miss ⟨c :: rest, .symbol⟩

------------------------------------------------------------
-- Numbers, Spans and Times
------------------------------------------------------------

/- At least one decimal digit. -/
def digits : Reader (List Char) :=
  fun s =>
    match s.takeWhile Char.isDigit with
    | [] => .miss ⟨s, .digit⟩
    | d :: ds => .ok (d :: ds) (s.dropWhile Char.isDigit)

/- The microseconds of a unit of time. -/
def unit : Reader Int :=
  (do word "ms"; pure 1000)
    <|> (do word "us"; pure 1)
    <|> (do word "s"; pure 1000000)
    <|> (do word "m"; pure (60 * 1000000))
    <|> (do word "h"; pure (60 * 60 * 1000000))
    <|> (do word "d"; pure (24 * 60 * 60 * 1000000))

/- Digits of the signed 64-bit range. -/
def amount : Reader Int64 :=
  Reader.convert digits fun ds =>
    Numeral.toInt64? (Numeral.ofDigits ds)

/- A span such as `250ms`, within the range of microseconds. -/
def span : Reader Value :=
  Reader.convert
    (do
      let n ← amount
      let factor ← unit
      boundary
      pure (n.toInt * factor))
    fun micros =>
      (Numeral.toInt64? micros).map fun n =>
        .span (Span.ofMicros n)

/- A whole number, unsigned only when it has to be. -/
def wholeValue? (n : Nat) : Option Value :=
  if n ≤ 0x7fffffffffffffff then some (.int (Int64.ofNat n))
  else if n ≤ 0xffffffffffffffff then
    some (.uint (UInt64.ofNat n))
  else none

/- The number of its digits before and behind the point. -/
def numberValue? : List Char × Option (List Char) → Option Value
  | (whole, none) => wholeValue? (Numeral.ofDigits whole)
  | (whole, some fraction) =>
      some (.float (Numeral.round false
        ⟨Numeral.ofDigits (whole ++ fraction),
          -(fraction.length : Int)⟩))

/- A number, whole or with a fraction. -/
def number : Reader Value :=
  Reader.convert
    (do
      let whole ← digits
      let fraction ← Reader.optional (do symbol '.'; digits)
      boundary
      pure (whole, fraction))
    numberValue?

/- A time such as `datetime("2024-01-01T00:00:00Z")`. -/
def timestamp : Reader Value :=
  Reader.convert
    (do
      keyword "datetime"
      layout
      symbol '('
      layout
      let s ← stringLiteral
      layout
      symbol ')'
      pure s)
    fun s => (Timestamp.read? s).map Value.time

end Lexeme

end TypedFlux
