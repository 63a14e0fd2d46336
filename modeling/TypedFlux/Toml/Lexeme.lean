import TypedFlux.Number.Numeral
import TypedFlux.Syntax.Lexeme
import TypedFlux.Time.Calendar
import TypedFlux.Toml.Table

/-
  The smallest readable pieces of TOML.

  Key definitions include:
    * `Toml.Grammar.string`
    * `Toml.Grammar.dottedKey`
    * `Toml.Grammar.number`
    * `Toml.Grammar.time`
-/

namespace TypedFlux

namespace Toml

namespace Grammar

------------------------------------------------------------
-- Blanks and Comments
------------------------------------------------------------

/- A blank within a line. -/
def isBlank (c : Char) : Bool :=
  c == ' ' || c == '\t'

/- Whether a character may stand in a comment or a string. -/
def isText (c : Char) : Bool :=
  c == '\t' || (' ' ≤ c && c != '\x7f')

/- Any number of blanks. -/
def blanks : Reader Unit :=
  fun s => .ok () (s.dropWhile isBlank)

/- The end of a line. -/
def newline : Reader Unit
  | '\n' :: rest => .ok () rest
  | '\r' :: '\n' :: rest => .ok () rest
  | s => .miss ⟨s, .symbol⟩

/- The end of a line or of the text. -/
def lineEnd : Reader Unit
  | [] => .ok () []
  | s => newline s

/- A comment, up to the end of its line. -/
def comment : Reader Unit
  | '#' :: rest => .ok () (rest.dropWhile isText)
  | s => .miss ⟨s, .symbol⟩

/- Blanks, comments and line ends. -/
def gap : Reader Unit := do
  let _ ← Reader.many (do
    blanks
    let _ ← Reader.optional comment
    newline)
  blanks

/- Go on only under a condition. -/
def check (condition : Bool) : Reader Unit :=
  if condition then return else Reader.missing .conversion

------------------------------------------------------------
-- Strings
------------------------------------------------------------

/- A hexadecimal digit. -/
def isHexDigit (c : Char) : Bool :=
  c.isDigit || ('a' ≤ c && c ≤ 'f') || ('A' ≤ c && c ≤ 'F')

/- The character of a code in hexadecimal digits. -/
def scalar? (digits : List Char) : Option Char :=
  if digits.all isHexDigit then
    let code := Numeral.ofBase 16 digits
    if code < 0xd800 || (0xe000 ≤ code && code < 0x110000) then
      some (Char.ofNat code)
    else none
  else none

/- The character of a letter behind a backslash. -/
def unescape? : Char → Option Char
  | 'b' => some '\x08'
  | 't' => some '\t'
  | 'n' => some '\n'
  | 'f' => some '\x0c'
  | 'r' => some '\r'
  | '\x22' => some '\x22'
  | '\x5c' => some '\x5c'
  | _ => none

/- Put a character before the content of a string. -/
def before
    (c : Char) :
    Option (List Char × List Char) →
      Option (List Char × List Char) :=
  Option.map fun (content, rest) => (c :: content, rest)

/- The content of a string in double quotes, and the rest. -/
def basicBody : List Char → Option (List Char × List Char)
  | [] => none
  | '\x22' :: rest => some ([], rest)
  | '\x5c' :: 'u' :: a :: b :: c :: d :: rest => do
      before (← scalar? [a, b, c, d]) (basicBody rest)
  | '\x5c' :: 'U' :: a :: b :: c :: d :: e :: f :: g :: h :: rest =>
      do before (← scalar? [a, b, c, d, e, f, g, h])
          (basicBody rest)
  | '\x5c' :: e :: rest => do
      before (← unescape? e) (basicBody rest)
  | c :: rest =>
      if isText c && c != '\x5c' then before c (basicBody rest)
      else none

/- The content of a string in apostrophes, and the rest. -/
def literalBody : List Char → Option (List Char × List Char)
  | [] => none
  | '\x27' :: rest => some ([], rest)
  | c :: rest =>
      if isText c then before c (literalBody rest) else none

/- Whether only blanks stand before the end of the line. -/
def endsLine (s : List Char) : Bool :=
  match s.dropWhile isBlank with
  | '\n' :: _ => true
  | '\r' :: '\n' :: _ => true
  | _ => false

/-
  The content of a string in three double quotes, and the rest.
  `skipping` behind a backslash at the end of a line, which
  leaves out all blanks and line ends that follow.  Up to two
  quotes may stand before the closing ones.
-/
def multilineBody
    (skipping : Bool) :
    List Char → Option (List Char × List Char)
  | [] => none
  | '\x22' :: '\x22' :: '\x22' :: '\x22' :: '\x22' :: rest =>
      some (['\x22', '\x22'], rest)
  | '\x22' :: '\x22' :: '\x22' :: '\x22' :: rest =>
      some (['\x22'], rest)
  | '\x22' :: '\x22' :: '\x22' :: rest => some ([], rest)
  | '\r' :: '\n' :: rest =>
      if skipping then multilineBody true rest
      else before '\n' (multilineBody false rest)
  | '\n' :: rest =>
      if skipping then multilineBody true rest
      else before '\n' (multilineBody false rest)
  | '\x5c' :: 'u' :: a :: b :: c :: d :: rest => do
      before (← scalar? [a, b, c, d]) (multilineBody false rest)
  | '\x5c' :: 'U' :: a :: b :: c :: d :: e :: f :: g :: h :: rest =>
      do before (← scalar? [a, b, c, d, e, f, g, h])
          (multilineBody false rest)
  | '\x5c' :: e :: rest =>
      if endsLine (e :: rest) then multilineBody true (e :: rest)
      else do before (← unescape? e) (multilineBody false rest)
  | c :: rest =>
      if skipping && isBlank c then multilineBody true rest
      else if isText c && c != '\x5c' then
        before c (multilineBody false rest)
      else none

/- The content of a string in three apostrophes, and the rest. -/
def multilineLiteralBody :
    List Char → Option (List Char × List Char)
  | [] => none
  | '\x27' :: '\x27' :: '\x27' :: '\x27' :: '\x27' :: rest =>
      some (['\x27', '\x27'], rest)
  | '\x27' :: '\x27' :: '\x27' :: '\x27' :: rest =>
      some (['\x27'], rest)
  | '\x27' :: '\x27' :: '\x27' :: rest => some ([], rest)
  | '\r' :: '\n' :: rest => before '\n' (multilineLiteralBody rest)
  | '\n' :: rest => before '\n' (multilineLiteralBody rest)
  | c :: rest =>
      if isText c then before c (multilineLiteralBody rest)
      else none

/- What a body function finds, as a string. -/
def stringOf
    (s : List Char) :
    Option (List Char × List Char) → Reply String
  | some (content, rest) => .ok (String.ofList content) rest
  | none => .miss ⟨s, .symbol⟩

/- The text behind a line end at its beginning. -/
def dropNewline : List Char → List Char
  | '\n' :: rest => rest
  | '\r' :: '\n' :: rest => rest
  | s => s

/- A string in double quotes. -/
def basicString : Reader String
  | '\x22' :: rest => stringOf rest (basicBody rest)
  | s => .miss ⟨s, .symbol⟩

/- A string in apostrophes. -/
def literalString : Reader String
  | '\x27' :: rest => stringOf rest (literalBody rest)
  | s => .miss ⟨s, .symbol⟩

/- A string over several lines in double quotes. -/
def multilineBasic : Reader String
  | '\x22' :: '\x22' :: '\x22' :: rest =>
      stringOf rest (multilineBody false (dropNewline rest))
  | s => .miss ⟨s, .symbol⟩

/- A string over several lines in apostrophes. -/
def multilineLiteral : Reader String
  | '\x27' :: '\x27' :: '\x27' :: rest =>
      stringOf rest (multilineLiteralBody (dropNewline rest))
  | s => .miss ⟨s, .symbol⟩

/- A string; three quotes always begin several lines. -/
def string : Reader String :=
  fun s =>
    if ['\x22', '\x22', '\x22'].isPrefixOf s then multilineBasic s
    else if ['\x27', '\x27', '\x27'].isPrefixOf s then
      multilineLiteral s
    else (basicString <|> literalString) s

------------------------------------------------------------
-- Keys
------------------------------------------------------------

/- A character of a key without quotes. -/
def isKeyChar (c : Char) : Bool :=
  c.isAlphanum || c == '-' || c == '_'

/- A key without quotes. -/
def bareKey : Reader String :=
  fun s =>
    match s.takeWhile isKeyChar with
    | [] => .miss ⟨s, .name⟩
    | key => .ok (String.ofList key) (s.dropWhile isKeyChar)

/- One part of a key. -/
def simpleKey : Reader String := do
  blanks
  let key ← basicString <|> literalString <|> bareKey
  blanks
  return key

/- How deep keys and values may be nested. -/
def depthLimit : Nat :=
  79

/- A key with its parts: the path and the last part. -/
def dottedKey : Reader (List String × String) :=
  Reader.convert (Reader.sepBy1 simpleKey (Lexeme.symbol '.'))
    fun parts =>
      if parts.length ≤ depthLimit then
        (parts.getLast?).map fun key => (parts.dropLast, key)
      else none

------------------------------------------------------------
-- Numbers
------------------------------------------------------------

/- Digits with single underscores between them. -/
def grouped
    (isDigit : Char → Bool) : List Char → List Char × List Char
  | '_' :: d :: rest =>
      if isDigit d then
        let (digits, rest) := grouped isDigit rest
        (d :: digits, rest)
      else ([], '_' :: d :: rest)
  | d :: rest =>
      if isDigit d then
        let (digits, rest) := grouped isDigit rest
        (d :: digits, rest)
      else ([], d :: rest)
  | [] => ([], [])

/- At least one digit, without the underscores. -/
def digitGroup (isDigit : Char → Bool) : Reader (List Char)
  | [] => .miss ⟨[], .digit⟩
  | d :: rest =>
      if isDigit d then
        let (digits, rest) := grouped isDigit rest
        .ok (d :: digits) rest
      else .miss ⟨d :: rest, .digit⟩

/- A sign, written out only if negative. -/
def sign : Reader (List Char)
  | '+' :: rest => .ok [] rest
  | '-' :: rest => .ok ['-'] rest
  | s => .ok [] s

/- The digits of a decimal integer: no zero before others. -/
def decimalDigits : Reader (List Char)
  | '0' :: rest => .ok ['0'] rest
  | s => digitGroup Char.isDigit s

/- An integer that is no larger than a 64-bit one. -/
def bounded? (n : Int) : Option Toml :=
  (Numeral.toInt64? n).map fun _ => .integer n

/- An integer in a base that its letter names. -/
def based
    (letter : String)
    (base : Nat)
    (isDigit : Char → Bool) : Reader Toml :=
  Reader.convert
    (do
      Lexeme.word letter
      digitGroup isDigit)
    fun digits => bounded? (Numeral.ofBase base digits)

/- An integer. -/
def integer : Reader Toml :=
  based "0x" 16 isHexDigit
    <|> based "0o" 8 (fun c => '0' ≤ c && c ≤ '7')
    <|> based "0b" 2 (fun c => c == '0' || c == '1')
    <|> Reader.convert
      (do return (← sign) ++ (← decimalDigits))
      fun text => (Numeral.int? text).bind bounded?

/- The digits behind the point. -/
def fraction : Reader (List Char) := do
  Lexeme.symbol '.'
  return '.' :: (← digitGroup Char.isDigit)

/- The exponent. -/
def exponent : Reader (List Char) := do
  Lexeme.symbol 'e' <|> Lexeme.symbol 'E'
  return 'e' :: (← sign) ++ (← digitGroup Char.isDigit)

/- A number with a fraction or an exponent. -/
def decimal : Reader Toml :=
  Reader.convert
    (do
      let whole := (← sign) ++ (← decimalDigits)
      let tail ← exponent <|> (do
        let digits ← fraction
        return digits ++ ((← Reader.optional exponent).getD []))
      return whole ++ tail)
    fun text => do
      let x ← Numeral.binary64? (String.ofList text)
      if x.isInfinite && !x.isNegative then none
      else some (.float x)

/- An infinity or no number at all. -/
def special : Reader Toml := do
  let negative := (← sign) == ['-']
  (do
      Lexeme.word "inf"
      return .float (Binary64.infinity negative))
    <|> (do
      Lexeme.word "nan"
      return .float (Binary64.nan negative))

/- Any number. -/
def number : Reader Toml :=
  decimal <|> special <|> integer

------------------------------------------------------------
-- Times
------------------------------------------------------------

/- A number of so many digits. -/
def fixed (count : Nat) : Reader Nat :=
  fun s =>
    let digits := s.take count
    if digits.length = count && digits.all Char.isDigit then
      .ok (Numeral.ofDigits digits) (s.drop count)
    else .miss ⟨s, .digit⟩

/- A date of the calendar. -/
def date : Reader Unit := do
  let year ← fixed 4
  Lexeme.symbol '-'
  let month ← fixed 2
  Lexeme.symbol '-'
  let day ← fixed 2
  check (Date.isValid ⟨year, month, day⟩)

/- A time of the day. -/
def clock : Reader Unit := do
  let hour ← fixed 2
  Lexeme.symbol ':'
  let minute ← fixed 2
  Lexeme.symbol ':'
  let second ← fixed 2
  check (hour ≤ 23 && minute ≤ 59 && second ≤ 60)
  let _ ← Reader.optional (do
    Lexeme.symbol '.'
    Lexeme.digits)

/- A distance from UTC. -/
def offset : Reader Unit :=
  Lexeme.symbol 'Z' <|> Lexeme.symbol 'z' <|> (do
    Lexeme.symbol '+' <|> Lexeme.symbol '-'
    let hour ← fixed 2
    Lexeme.symbol ':'
    let minute ← fixed 2
    check (hour ≤ 23 && minute ≤ 59))

/- A date, a time of the day, or both. -/
def moment : Reader Unit :=
  (do
      date
      let _ ← Reader.optional (do
        Lexeme.symbol 'T' <|> Lexeme.symbol 't'
          <|> Lexeme.symbol ' '
        clock
        Reader.optional offset))
    <|> clock

/- A time as it is written. -/
def time : Reader Toml :=
  fun s =>
    match moment s with
    | .ok _ rest =>
        .ok (.time (String.ofList (s.take (s.length - rest.length))))
          rest
    | .miss fault => .miss fault
    | .cut fault => .cut fault

end Grammar

end Toml

end TypedFlux
