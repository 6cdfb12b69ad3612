/-!
# Byte strings

Macro names, replacement texts, expressions, command lines and printed output are byte
strings.  Every character class is ASCII: a byte of a multi-byte character is no digit, no
letter and no blank.

* `Bytes`, `bytes`, `ascii` — the type and its literals.
* `Bytes.trim` — both ends freed from the bytes of a class.
* `Bytes.lines` — the pieces between newlines, as many as newlines plus one.
* `Bytes.beforeNul` — what a reader of NUL-terminated text sees.
-/

namespace MacroConstants

/-- A byte string. -/
abbrev Bytes := List UInt8

/-- Equality of byte strings, named once for all membership tests. -/
instance : LawfulBEq Bytes := inferInstance

/-- The byte of an ASCII character. -/
abbrev ascii (c : Char) : UInt8 := c.toUInt8

/-- The UTF-8 bytes of a string. -/
def bytes (s : String) : Bytes := s.toByteArray.data.toList

namespace Bytes

/-! ### Classes of bytes -/

/-- Space and tab, which separate the parts of a directive. -/
def isBlank (b : UInt8) : Bool := b == ascii ' ' || b == ascii '\t'

/-- The six bytes of white space: space, tab, newline, vertical tab, form feed, return. -/
def isSpace (b : UInt8) : Bool := b == ascii ' ' || (9 ≤ b && b ≤ 13)

/-- White space inside a line of a settings file: space, tab, return and newline. -/
def isLayout (b : UInt8) : Bool :=
  b == ascii ' ' || b == ascii '\t' || b == ascii '\r' || b == ascii '\n'

/-- A decimal digit. -/
def isDigit (b : UInt8) : Bool := ascii '0' ≤ b && b ≤ ascii '9'

/-- An octal digit. -/
def isOctal (b : UInt8) : Bool := ascii '0' ≤ b && b ≤ ascii '7'

/-- An ASCII letter. -/
def isLetter (b : UInt8) : Bool :=
  (ascii 'a' ≤ b && b ≤ ascii 'z') || (ascii 'A' ≤ b && b ≤ ascii 'Z')

/-- A letter, a digit or an underscore. -/
def isWord (b : UInt8) : Bool := isLetter b || isDigit b || b == ascii '_'

/-! ### Cutting -/

/-- Without the leading bytes of a class. -/
def trimStart (p : UInt8 → Bool) (s : Bytes) : Bytes := s.dropWhile p

/-- Without the trailing bytes of a class. -/
def trimEnd (p : UInt8 → Bool) (s : Bytes) : Bytes := (s.reverse.dropWhile p).reverse

/-- Without the leading and trailing bytes of a class. -/
def trim (p : UInt8 → Bool) (s : Bytes) : Bytes := trimEnd p (trimStart p s)

/-- The pieces between newlines; the text is the pieces joined by newlines. -/
def lines (s : Bytes) : List Bytes := s.splitOn (ascii '\n')

/-- The text before the first NUL, which is all that a reader of NUL-terminated text sees. -/
def beforeNul (s : Bytes) : Bytes := s.takeWhile (· != 0)

end Bytes

end MacroConstants
