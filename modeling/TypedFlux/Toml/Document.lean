import TypedFlux.Toml.Lexeme

/-
  Reading TOML documents.

  Key definitions include:
    * `Toml.Grammar.value`
    * `Toml.Grammar.Line`
    * `Toml.assemble`
    * `Toml.read?`
-/

namespace TypedFlux

namespace Toml

namespace Grammar

------------------------------------------------------------
-- Values
------------------------------------------------------------

/- A truth value. -/
def boolean : Reader Toml :=
  (do
      Lexeme.word "true"
      return .boolean true)
    <|> (do
      Lexeme.word "false"
      return .boolean false)

/- A value that holds no other. -/
def plainValue : Reader Toml :=
  (do return .string (← string)) <|> time <|> number <|> boolean

/- An array; a comma may follow its last item. -/
def arrayOf (item : Reader Toml) : Reader Toml := do
  Lexeme.symbol '['
  let items ← Reader.sepBy
    (do
      gap
      let value ← item
      gap
      return value)
    (Lexeme.symbol ',')
  if !items.isEmpty then
    let _ ← Reader.optional (Lexeme.symbol ',')
  gap
  Lexeme.symbol ']'
  return .array items

/- A key with its value. -/
def keyed
    (item : Reader Toml) :
    Reader ((List String × String) × Toml) := do
  let key ← dottedKey
  Lexeme.symbol '='
  blanks
  let value ← item
  blanks
  return (key, value)

/- Add entries to an inline table one after the other. -/
def inlineEntries :
    List ((List String × String) × Toml) → Entries →
      Option Entries
  | [], entries => some entries
  | ((path, key), value) :: rest, entries => do
      let entries ←
        addEntry .inlineKey path key value .inline entries
      inlineEntries rest entries

/- A table on one line. -/
def inlineOf (item : Reader Toml) : Reader Toml :=
  Reader.convert
    (do
      Lexeme.symbol '\x7b'
      let entries ← Reader.sepBy (keyed item) (Lexeme.symbol ',')
      blanks
      Lexeme.symbol '\x7d'
      return entries)
    fun entries => (inlineEntries entries []).map (.table .inline)

/- A value that is nested no deeper than the limit. -/
def value : Nat → Reader Toml
  | 0 => plainValue
  | depth + 1 =>
      plainValue <|> arrayOf (value depth) <|> inlineOf (value depth)

------------------------------------------------------------
-- Lines
------------------------------------------------------------

/- What a line says. -/
inductive Line where
  | blank
  | entry (path : List String) (key : String) (value : Toml)
  | table (path : List String) (key : String)
  | array (path : List String) (key : String)

/- The content of a line. -/
def lineContent : Reader Line :=
  (do
      Lexeme.word "[["
      let (path, key) ← dottedKey
      Lexeme.word "]]"
      return .array path key)
    <|> (do
      Lexeme.word "["
      let (path, key) ← dottedKey
      Lexeme.word "]"
      return .table path key)
    <|> (do
      let ((path, key), value) ← keyed (value depthLimit)
      return .entry path key value)
    <|> (return .blank)

/- A line with its end; there is none at the end of the text. -/
def line : Reader Line :=
  fun s =>
    if s.isEmpty then .miss ⟨s, .symbol⟩
    else
      (do
        blanks
        let content ← lineContent
        blanks
        let _ ← Reader.optional comment
        lineEnd
        return content : Reader Line) s

/- The lines of a text, if that consists of lines. -/
def lines? (s : List Char) : Option (List Line) :=
  match Reader.many line s with
  | .ok lines [] => some lines
  | _ => none

end Grammar

------------------------------------------------------------
-- Documents
------------------------------------------------------------

/-
  Add up the lines of a document.  `header` is the path of the
  table that entries go to.
-/
def assemble
    (header : List String) :
    List Grammar.Line → Entries → Option Entries
  | [], root => some root
  | .blank :: rest, root => assemble header rest root
  | .entry path key value :: rest, root => do
      let root ← modify .passed
        (addEntry .key path key value) header .header root
      assemble header rest root
  | .table path key :: rest, root => do
      let root ← modify .passed
        (fun _ => openTable key) path .header root
      assemble (path ++ [key]) rest root
  | .array path key :: rest, root => do
      let root ← modify .passed
        (fun _ => openArray key) path .header root
      assemble (path ++ [key]) rest root

/- The text without the mark of its encoding. -/
def dropMark : List Char → List Char
  | '\ufeff' :: rest => rest
  | s => s

/- The table that a document describes. -/
def read? (s : String) : Option Toml := do
  let lines ← Grammar.lines? (dropMark s.toList)
  let root ← assemble [] lines []
  return .table .header root

end Toml

end TypedFlux
