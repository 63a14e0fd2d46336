/-
  Blank characters.

  Two classes of characters separate words.  Layout is what
  may stand between the words of a query: space, tab and the
  two line ends.  Blank is the wider class that trimming
  removes at the ends of a text.

  Key definitions include:
    * `Text.isLayout`
    * `Text.isBlank`
    * `Text.trim`
-/

namespace TypedFlux

namespace Text

------------------------------------------------------------
-- Character Classes
------------------------------------------------------------

/- Space, tab, carriage return and line feed. -/
def isLayout (c : Char) : Bool :=
  c == ' ' || c == '\t' || c == '\r' || c == '\n'

/-
  White space of any script: the ASCII controls from tab to
  carriage return, the space, and the wider spaces.
-/
def isBlank (c : Char) : Bool :=
  let n := c.toNat
  (0x09 ≤ n && n ≤ 0x0d) || n == 0x20 || n == 0x85
    || n == 0xa0 || n == 0x1680
    || (0x2000 ≤ n && n ≤ 0x200a)
    || n == 0x2028 || n == 0x2029 || n == 0x202f
    || n == 0x205f || n == 0x3000

------------------------------------------------------------
-- Trimming
------------------------------------------------------------

/- Drop the blanks at the end of a list of characters. -/
def trimEndChars (cs : List Char) : List Char :=
  (cs.reverse.dropWhile isBlank).reverse

/- Drop the blanks at both ends of a list of characters. -/
def trimChars (cs : List Char) : List Char :=
  trimEndChars (cs.dropWhile isBlank)

/- Drop the blanks at the end of a text. -/
def trimEnd (s : String) : String :=
  String.ofList (trimEndChars s.toList)

/- Drop the blanks at both ends of a text. -/
def trim (s : String) : String :=
  String.ofList (trimChars s.toList)

end Text

end TypedFlux
