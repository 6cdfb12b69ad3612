import MacroConstants.Utility.Regex.Reader

/-!
# Editing scripts

A script is a row of commands; blocks and branches are jumps between their numbers.

* `Sed.Address`, `Sed.Selection` — the lines a command is for.
* `Sed.Substitution` — what is replaced by what.
* `Sed.Action`, `Sed.Command` — the commands.
-/

namespace MacroConstants.Utility.Sed

/-- A regular expression; an empty one stands for the one used last. -/
abbrev Expression := Option Regex

/-- A line by itself. -/
inductive Address where
  | line (n : Nat)
  | last
  | contains (p : Expression)
  /-- A line, and every so many lines after it. -/
  | every (first step : Nat)
  deriving DecidableEq, Repr

/-- The end of a range of lines. -/
inductive Reach where
  | address (a : Address)
  /-- So many lines after the first one. -/
  | further (n : Nat)
  /-- The next line whose number is a multiple. -/
  | multiple (n : Nat)
  deriving DecidableEq, Repr

/-- The lines a command is for. -/
structure Selection where
  start : Option Address := none
  stop : Option Reach := none
  negated : Bool := false
  deriving DecidableEq, Repr

/-- A change of case in a replacement. -/
inductive CaseChange where
  | upper
  | lower
  | upperNext
  | lowerNext
  | none
  deriving DecidableEq, Repr

/-- A part of a replacement. -/
inductive Part where
  | text (b : UInt8)
  | group (n : Nat)
  | change (c : CaseChange)
  deriving DecidableEq, Repr

/-- What is replaced by what. -/
structure Substitution where
  expression : Expression
  replacement : List Part
  all : Bool := false
  /-- The match the replacement starts with. -/
  first : Nat := 1
  prints : Bool := false
  file : Option Bytes := none
  deriving DecidableEq, Repr

/-- What a command does. -/
inductive Action where
  /-- The start of a block; without selection its end is gone to. -/
  | block (stop : Nat)
  | nothing
  | substitute (s : Substitution)
  | translate (pairs : List (UInt8 × UInt8))
  | print
  | printFirst
  | delete
  | deleteFirst
  | next
  | appendNext
  | copy
  | copyAppend
  | fetch
  | fetchAppend
  | exchange
  | append (text : Bytes)
  | insert (text : Bytes)
  | change (text : Bytes)
  | quit (status : Nat)
  | quitSilently (status : Nat)
  | number
  | list
  | readFile (path : Bytes)
  | writeFile (path : Bytes)
  | writeFirst (path : Bytes)
  | branch (target : Nat)
  | branchIfReplaced (target : Nat)
  | branchUnlessReplaced (target : Nat)
  | empty
  | fileName
  deriving DecidableEq, Repr

/-- A command. -/
structure Command where
  selection : Selection
  action : Action
  deriving DecidableEq, Repr

/-- A script. -/
structure Script where
  commands : Array Command := #[]
  /-- Whether lines are printed only where that is asked for. -/
  quiet : Bool := false
  /-- The byte at the end of lines. -/
  mark : UInt8 := ascii '\n'
  deriving Repr

/-- The files a script writes to. -/
def Script.files (s : Script) : List Bytes :=
  s.commands.toList.filterMap fun c =>
    match c.action with
    | .writeFile path | .writeFirst path => some path
    | .substitute s => s.file
    | _ => none

end MacroConstants.Utility.Sed
