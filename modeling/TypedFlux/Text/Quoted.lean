import TypedFlux.Text.Escaped

/-
  Quoted text in diagnostics.

  A quoted text stands between double quotes.  Inside it the
  quote and the backslash carry a backslash, the common
  controls have their letter, and a character of the escaped
  class is written by its number.

  Key definitions include:
    * `Text.hex`
    * `Text.escape`
    * `Text.quoted`
-/

namespace TypedFlux

namespace Text

/- A number in lower-case hexadecimal digits. -/
def hex (n : Nat) : String :=
  String.ofList (Nat.toDigits 16 n)

/- Write one character inside a quotation. -/
def escape (c : Char) : String :=
  if c == '\x00' then "\\0"
  else if c == '\t' then "\\t"
  else if c == '\r' then "\\r"
  else if c == '\n' then "\\n"
  else if c == '\x22' then "\\\""
  else if c == '\x5c' then "\\\\"
  else if isEscaped c then "\\u\x7b" ++ hex c.toNat ++ "\x7d"
  else String.singleton c

/- Write a text between double quotes. -/
def quoted (s : String) : String :=
  "\"" ++ String.join (s.toList.map escape) ++ "\""

end Text

end TypedFlux
