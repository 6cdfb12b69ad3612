import MacroConstants.Bytes.Numeral
import MacroConstants.Shell.Script

/-!
# Reading a script

A script is read byte by byte, with the line counted, and token by token, with one token that can
be given back.

* `Shell.Token` — words, operators, reserved words, redirection operators and line ends.
* `Shell.Reader` — what is left of a script and what is known about it.
* `Shell.Reading` — a computation that reads; its failure is what is wrong with the script.
-/

namespace MacroConstants.Shell

/-- A token. -/
inductive Token where
  /-- The end of the script. -/
  | finish
  | newline
  /-- A word; `quoted` if any part of it is. -/
  | word (w : Word) (quoted : Bool)
  /-- A redirection operator with the descriptor written before it. -/
  | redirection (descriptor : Option Nat) (operator : Bytes)
  /-- Another operator or a reserved word. -/
  | symbol (text : Bytes)

namespace Token

/-- What a token is called in a complaint. -/
def name : Token → Bytes
  | finish => bytes "end of file"
  | newline => bytes "newline"
  | word _ _ => bytes "word"
  | redirection _ _ => bytes "redirection"
  | symbol text => bytes "\"" ++ text ++ bytes "\""

/-- Whether a token is an operator or reserved word. -/
def isSymbol (text : String) : Token → Bool
  | symbol t => t == bytes text
  | _ => false

/-- The end of the script. -/
def isFinish : Token → Bool
  | finish => true
  | _ => false

/-- The end of a line. -/
def isNewline : Token → Bool
  | newline => true
  | _ => false

/-- The operators and words that end a list of commands. -/
def closers : List Bytes :=
  [bytes ")", bytes ";;", bytes "do", bytes "done", bytes "elif", bytes "else", bytes "esac",
   bytes "fi", bytes "then", bytes "\x7d"]

/-- Whether a token ends a list of commands. -/
def closes : Token → Bool
  | finish => true
  | symbol t => closers.contains t
  | _ => false

end Token

/-- What a token is looked at for when it is read. -/
structure Checks where
  /-- Line ends are skipped. -/
  newlines : Bool := false
  /-- Reserved words are recognised. -/
  reserved : Bool := false
  /-- Aliases are replaced. -/
  aliases : Bool := false
  /-- The token ends a document, and a dollar sign in it is nothing special. -/
  mark : Bool := false
  deriving DecidableEq, Repr

/-- Checks of either of two kinds. -/
def Checks.or (a b : Checks) : Checks :=
  ⟨a.newlines || b.newlines, a.reserved || b.reserved, a.aliases || b.aliases, a.mark || b.mark⟩

/-- A document that starts after the end of the line. -/
structure PendingDocument where
  number : Nat
  mark : Bytes
  /-- Whether it is taken as it is. -/
  verbatim : Bool
  /-- Whether tabs at the start of lines are dropped. -/
  indented : Bool
  deriving DecidableEq, Repr

/-- What is left of a script and what is known about it. -/
structure Reader where
  rest : Bytes
  line : Nat := 1
  last : Token := .newline
  /-- Whether the last token was given back. -/
  given : Bool := false
  checks : Checks := {}
  /-- Whether a quote was seen in the current word. -/
  quoted : Bool := false
  pending : List PendingDocument := []
  /-- The documents read so far, by number. -/
  documents : Array Word := #[]
  aliases : List (Bytes × Bytes) := []
  /-- The aliases being replaced, each with what is left of the script after it. -/
  expanding : List (Bytes × Nat) := []

/-- A computation that reads; its failure is what is wrong with the script. -/
abbrev Reading := ExceptT Bytes (StateM Reader)

/-- The number of steps that a loop of the reader may take; no script is as long. -/
def readingLimit : Nat := 2 ^ 40

namespace Reading

/-- Fails. -/
def complain {α : Type} (text : Bytes) : Reading α := throw (bytes "Syntax error: " ++ text)

/-- Fails because of the last token, perhaps naming the one that was expected.  Complaints of this
kind have at most 63 bytes. -/
def unexpected {α : Type} (expected : Option Bytes) : Reading α := do
  let last := (← get).last.name ++ bytes " unexpected"
  let more := match expected with
    | some name => bytes " (expecting " ++ name ++ bytes ")"
    | none => []
  complain ((last ++ more).take 63)

/-- The next byte. -/
def next : Reading (Option UInt8) :=
  modifyGet fun r =>
    match r.rest with
    | [] => (none, r)
    | b :: rest => (some b, { r with rest })

/-- Puts a byte back. -/
def back (b : UInt8) : Reading Unit := modify fun r => { r with rest := b :: r.rest }

/-- Puts a byte back, if there was one. -/
def back? (b : Option UInt8) : Reading Unit := b.forM back

/-- Counts a line. -/
def countLine : Reading Unit := modify fun r => { r with line := r.line + 1 }

/-- A text without the pairs of backslash and newline at its front, and the number of them. -/
def dropJoints : Nat → Bytes → Bytes × Nat
  | lines, 0x5c :: 0x0a :: rest => dropJoints (lines + 1) rest
  | lines, rest => (rest, lines)

/-- The next byte; a backslash before the end of a line joins two lines. -/
def nextJoined : Reading (Option UInt8) := do
  modify fun r =>
    let (rest, lines) := dropJoints 0 r.rest
    { r with rest, line := r.line + lines }
  next

/-- The longest text at the front whose bytes are of a class. -/
def run (p : UInt8 → Bool) : Reading Bytes :=
  modifyGet fun r => (r.rest.takeWhile p, { r with rest := r.rest.dropWhile p })

/-- Gives the last token back. -/
def giveBack : Reading Unit := modify fun r => { r with given := true }

/-- Sets what the next token is looked at for. -/
def look (checks : Checks) : Reading Unit := modify fun r => { r with checks }

end Reading

/-- Newlines, reserved words and aliases. -/
def Checks.command : Checks := { newlines := true, reserved := true, aliases := true }

/-- A byte that can start a name. -/
def isNameStart (b : UInt8) : Bool := Bytes.isLetter b || b == ascii '_'

/-- Whether a text is a name. -/
def isName (s : Bytes) : Bool :=
  match s with
  | [] => false
  | b :: rest => isNameStart b && rest.all Bytes.isWord

end MacroConstants.Shell
