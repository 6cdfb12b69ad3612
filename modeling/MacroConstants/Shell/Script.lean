import MacroConstants.Bytes

/-!
# Shell scripts

The shell command language.

* `Shell.Piece`, `Shell.Word` — text with quotes and expansions.
* `Shell.Redirection` — where a descriptor is pointed.
* `Shell.Command` — simple commands, pipelines and control flow.
-/

namespace MacroConstants.Shell

/-- What a dollar sign can refer to. -/
inductive Parameter where
  | variable (name : Bytes)
  /-- The name of the script or, from one on, an argument. -/
  | position (n : Nat)
  | count
  /-- All arguments, as separate words where they are quoted. -/
  | separately
  /-- All arguments with the first separator between them. -/
  | together
  | status
  | process
  | lastJob
  | options
  deriving DecidableEq, Repr

/-- The name of a parameter. -/
def Parameter.name : Parameter → Bytes
  | .variable name => name
  | .position n => (Nat.toDigits 10 n).map Char.toUInt8
  | .count => bytes "#"
  | .separately => bytes "@"
  | .together => bytes "*"
  | .status => bytes "?"
  | .process => bytes "$"
  | .lastJob => bytes "!"
  | .options => bytes "-"

/-- How a file is opened by a redirection. -/
inductive Opening where
  | input
  | output
  /-- Output over what is there, even if files are protected. -/
  | replace
  | append
  | both
  deriving DecidableEq, Repr

mutual

/-- A part of a word; quoted parts are neither split nor read as wildcards. -/
inductive Piece where
  | text (quoted : Bool) (bytes : Bytes)
  /-- The mark of a pair of quotes, which makes a word of nothing. -/
  | quotes
  | parameter (quoted : Bool) (p : Parameter) (use : Use)
  /-- The output of a command. -/
  | output (quoted : Bool) (command : Command)
  /-- The value of an integer expression. -/
  | integer (quoted : Bool) (expression : List Piece)

/-- What is made of the value of a parameter. -/
inductive Use where
  | value
  | length
  /-- A word in its place; `orEmpty` also in place of an empty value. -/
  | fallback (orEmpty : Bool) (word : List Piece)
  /-- As `fallback`, and the parameter is set to the word. -/
  | assign (orEmpty : Bool) (word : List Piece)
  /-- A failure in its place. -/
  | demand (orEmpty : Bool) (word : List Piece)
  /-- A word if there is a value. -/
  | alternative (orEmpty : Bool) (word : List Piece)
  /-- The value without what a pattern covers at one end. -/
  | trim (atEnd longest : Bool) (pattern : List Piece)
  /-- Anything else, which fails when it is expanded. -/
  | invalid

/-- What is done with a descriptor while a command runs. -/
inductive Redirection where
  | openFile (descriptor : Nat) (how : Opening) (path : List Piece)
  | duplicate (descriptor source : Nat)
  /-- A duplicate of the descriptor a word gives. -/
  | duplicateWord (descriptor : Nat) (source : List Piece)
  | close (descriptor : Nat)
  /-- The document of a number as input. -/
  | document (descriptor number : Nat)

/-- One arm of a case distinction. -/
inductive Arm where
  | arm (patterns : List (List Piece)) (body : Command)

/-- A command; `line` is where it starts. -/
inductive Command where
  | nothing
  | simple (line : Nat) (assignments : List (Bytes × List Piece)) (words : List (List Piece))
      (redirections : List Redirection)
  | pipeline (stages : List Command) (background : Bool)
  | redirected (line : Nat) (body : Command) (redirections : List Redirection)
  | subshell (line : Nat) (body : Command) (redirections : List Redirection)
  | background (body : Command) (redirections : List Redirection)
  | sequence (first second : Command)
  /-- The second command runs if the first succeeds. -/
  | andThen (first second : Command)
  /-- The second command runs if the first fails. -/
  | orElse (first second : Command)
  | negated (body : Command)
  | conditional (test yes no : Command)
  /-- The body runs as long as the test succeeds, or, if `whileFails`, as long as it fails. -/
  | loop (whileFails : Bool) (test body : Command)
  | forEach (line : Nat) (name : Bytes) (words : List (List Piece)) (body : Command)
  | choice (line : Nat) (subject : List Piece) (arms : List Arm)
  | define (line : Nat) (name : Bytes) (body : Command)

end

instance : Inhabited Command := ⟨.nothing⟩

/-- A word before expansion. -/
abbrev Word := List Piece

/-- The text of a word without quotes and expansions. -/
def Word.plain? : Word → Option Bytes
  | [.text false t] => some t
  | _ => none

/-- Whether nothing is in a command. -/
def Command.isNothing : Command → Bool
  | .nothing => true
  | _ => false

end MacroConstants.Shell
