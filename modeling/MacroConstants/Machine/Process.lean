import MacroConstants.Machine.FileSystem

/-!
# Processes

What a running program sees: its directory, its open descriptors and its environment.

* `Process` — that view.
* `Job` — a computation that sees a process and changes files.
-/

namespace MacroConstants

/-- A running program's view of the machine. -/
structure Process where
  directory : Path := []
  /-- The open file each descriptor stands for. -/
  descriptors : List (Nat × Nat) := []
  environment : List (Bytes × Bytes) := []
  number : Nat := 1

/-- How a process ends. -/
inductive ExitStatus where
  | status (n : Nat)
  | signal (n : Nat)
  deriving DecidableEq, Repr

/-- What a process does with files. -/
abbrev Job := ReaderT Process (StateM FileSystem)

namespace Job

/-- The open file of a descriptor. -/
def opened? (descriptor : Nat) : Job (Option Nat) := return (← read).descriptors.lookup descriptor

/-- Writes to a descriptor; whether that was possible. -/
def put (descriptor : Nat) (text : Bytes) : Job Bool := do
  match ← opened? descriptor with
  | none => return false
  | some i =>
    modifyGet fun f =>
      match f.write i text with
      | some f => (true, f)
      | none => (false, f)

/-- Writes to standard output. -/
def say (text : Bytes) : Job Unit := do
  let _ ← put 1 text

/-- Writes to standard error. -/
def complain (text : Bytes) : Job Unit := do
  let _ ← put 2 text

/-- Everything a descriptor still has to be read. -/
def takeAll (descriptor : Nat) : Job (Option Bytes) := do
  match ← opened? descriptor with
  | none => return none
  | some i => modifyGet (·.readAll i)

/-- The bytes of the file a path leads to. -/
def readPath (path : Bytes) : Job (Except PathFault Bytes) := do
  let p ← read
  match (← get).resolve p.directory path with
  | .error fault => return .error fault
  | .ok place =>
    match (← get).node? place with
    | some (.descriptor n) => return ((← takeAll n).map .ok).getD (.error .missing)
    | _ => return (← get).readPath p.directory path

/-- The place a path leads to, and what is there. -/
def find (path : Bytes) : Job (Except PathFault (Path × Node)) := do
  return (← get).find (← read).directory path

/-- Writes a whole file. -/
def writePath (path text : Bytes) (mode : OpenMode) : Job (Option PathFault) := do
  let p ← read
  modifyGet fun f =>
    match f.openPath (p.descriptors.lookup ·) p.directory path mode with
    | .error fault => (some fault, f)
    | .ok (i, f) => (none, (f.write i text).getD f)

/-- The value of an environment variable. -/
def value? (name : Bytes) : Job (Option Bytes) := return (← read).environment.lookup name

end Job

end MacroConstants
