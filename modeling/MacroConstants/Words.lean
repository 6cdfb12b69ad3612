import MacroConstants.Bytes

/-!
# Words of a command line

How a text from an option or an environment variable becomes the words of a command line, and how
such words are shown.  Words are separated by white space; a backslash makes the next byte literal,
inside either kind of quotes too; quotes may be part of a word and one left open ends with the text.

* `splitWords` — the words of a text.
* `joinWords` — words as one text; it does not quote, so not every list of words reads back.
-/

namespace MacroConstants

namespace Words

/-- Where in a word the reader is; the quote that is open, if any. -/
inductive Mode where
  | plain (quote : Option UInt8)
  /-- After a backslash. -/
  | escaped (quote : Option UInt8)
  deriving DecidableEq, Repr

/-- Space, tab, return and newline separate words. -/
def isSeparator (b : UInt8) : Bool :=
  b == ascii ' ' || b == ascii '\t' || b == ascii '\r' || b == ascii '\n'

/-- Single and double quotes. -/
def isQuote (b : UInt8) : Bool := b == ascii '"' || b == ascii '\''

/-- The word read so far, kept in reverse; a word without bytes is none. -/
def flush (word : Bytes) : List Bytes := if word.isEmpty then [] else [word.reverse]

/-- The words of a text, given the mode and the reversed start of the current word. -/
def scan : Mode → Bytes → Bytes → List Bytes
  | .plain _, word, [] => flush word
  | .escaped _, word, [] => flush (ascii '\\' :: word)
  | .escaped quote, word, b :: rest => scan (.plain quote) (b :: word) rest
  | .plain none, word, b :: rest =>
    if b = ascii '\\' then scan (.escaped none) word rest
    else if isQuote b then scan (.plain (some b)) word rest
    else if isSeparator b then flush word ++ scan (.plain none) [] rest
    else scan (.plain none) (b :: word) rest
  | .plain (some q), word, b :: rest =>
    if b = q then scan (.plain none) word rest
    else if b = ascii '\\' then scan (.escaped (some q)) word rest
    else scan (.plain (some q)) (b :: word) rest

end Words

/-- The shell words of a text; a NUL ends its word. -/
def splitWords (text : Bytes) : List Bytes :=
  (Words.scan (.plain none) [] text).map Bytes.beforeNul

/-- The words of a command line with single spaces between them. -/
def joinWords (words : List Bytes) : Bytes := (bytes " ").intercalate words

end MacroConstants
