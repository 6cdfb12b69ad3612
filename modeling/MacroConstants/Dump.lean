import MacroConstants.Finding
import MacroConstants.Selector

/-!
# Macro dumps

A preprocessor asked for its macros prints one directive a line.

* `Dump.Line`, `Dump.readLine` — what a line of the dump says.
* `Definition`, `Dump.definitions` — the macros kept, in order.
* `Dump.warnings` — a warning for each line that cannot be read.
-/

namespace MacroConstants

/-- A macro without parameters: its name, its text, which may be empty, and its line. -/
structure Definition where
  name : Bytes
  text : Bytes
  line : UInt32
  deriving DecidableEq, Repr

namespace Dump

/-- The file name of findings about a dump. -/
def fileName : Bytes := bytes "<macro-dump>"

/-- What a line of a dump says. -/
inductive Line where
  | blank
  /-- A line that is no definition, without its final returns. -/
  | unreadable (text : Bytes)
  /-- A macro with parameters. -/
  | function (name : Bytes)
  | object (name text : Bytes)
  deriving DecidableEq, Repr

/-- The text after the word `#define` and a blank. -/
def afterDirective? (line : Bytes) : Option Bytes :=
  match (bytes "#define").isPrefixOf? line with
  | some (b :: rest) => if Bytes.isBlank b then some rest else none
  | _ => none

/-- A parenthesis, which the name of a macro with parameters holds. -/
def isParenthesis (b : UInt8) : Bool := b == ascii '(' || b == ascii ')'

/-- Reads one line.  The name ends at a blank; the text is what follows, without blanks around
it. -/
def readLine (text : Bytes) : Line :=
  let line := text.trimEnd (· == ascii '\r')
  if line.all Bytes.isSpace then .blank
  else
    match afterDirective? line with
    | none => .unreadable line
    | some rest =>
      let rest := rest.trimStart Bytes.isBlank
      let name := rest.takeWhile (!Bytes.isBlank ·)
      let value := Bytes.trim Bytes.isBlank (rest.dropWhile (!Bytes.isBlank ·))
      if name.isEmpty then .unreadable line
      else if name.any isParenthesis then .function name
      else .object name value

/-- The lines of a dump with their numbers, counted from one in 32 bits. -/
def numbered (text : Bytes) : List (Line × UInt32) :=
  text.lines.zipIdx.map fun (line, i) => (readLine line, (i + 1).toUInt32)

/-- The macro a line defines, if its name is kept. -/
def definition? (keep : Selector) : Line × UInt32 → Option Definition
  | (.object name text, line) => if keep name then some ⟨name, text, line⟩ else none
  | _ => none

/-- The macros without parameters whose names are kept, in order. -/
def definitions (keep : Selector) (text : Bytes) : List Definition :=
  (numbered text).filterMap (definition? keep)

/-- The warning about a line that cannot be read. -/
def warning? : Line × UInt32 → Option Finding
  | (.unreadable text, line) =>
    some ⟨.warning, some fileName, line, bytes "unable to parse line: " ++ text⟩
  | _ => none

/-- The warnings about lines that cannot be read, in order. -/
def warnings (text : Bytes) : List Finding := (numbered text).filterMap warning?

end Dump

namespace Definition

/-- The warning about a definition of a name that an earlier line defines. -/
def duplicateWarning (d : Definition) : Finding :=
  ⟨.warning, some Dump.fileName, d.line, bytes "duplicate definition of " ++ d.name ++
    bytes " ignored"⟩

end Definition

end MacroConstants
