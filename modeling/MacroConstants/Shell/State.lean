import MacroConstants.Machine.Process
import MacroConstants.Shell.Reader

/-!
# The state of a running script

* `Shell.State` — variables, functions, arguments, options and open files.
* `Shell.Ending` — what ends a script early.
* `Shell.Action` — a step of a script.
* `Shell.complain`, `Shell.fail` — what is said about a script on standard error.
-/

namespace MacroConstants.Shell

/-- A variable. -/
structure Variable where
  /-- Nothing for a variable that has only attributes. -/
  value : Option Bytes := none
  exported : Bool := false
  constant : Bool := false
  deriving DecidableEq, Repr

/-- A function. -/
structure Function where
  line : Nat
  body : Command

/-- What is skipped: the rest of loops, or of a function or script. -/
inductive Skip where
  | break (loops : Nat)
  | continue (loops : Nat)
  | return
  deriving DecidableEq, Repr

/-- What ends a script early. -/
inductive Ending where
  /-- The script has asked for it; its status is that of the state. -/
  | exit
  /-- A complaint; its status is that of the state. -/
  | failure
  /-- A signal to the process of the script. -/
  | signal (number : Nat)
  deriving DecidableEq, Repr

/-- The state of a running script. -/
structure State where
  files : FileSystem
  directory : Path
  descriptors : List (Nat × Nat)
  bindings : List (Bytes × Variable) := []
  functions : List (Bytes × Function) := []
  aliases : List (Bytes × Bytes) := []
  /-- The letters of the options that are set, in the order they are shown in. -/
  options : Bytes := []
  /-- The name of the script. -/
  zero : Bytes
  arguments : List Bytes := []
  /-- The status of the last command. -/
  status : Nat := 0
  /-- The status of the last command whose output was taken in the current command. -/
  outputStatus : Nat := 0
  process : Nat := 1
  /-- The processes started in the background, last one first, each with its status. -/
  jobs : List (Nat × Nat) := []
  /-- The process that was last started in the background. -/
  lastJob : Option Nat := none
  /-- Whether this is a process of its own inside the script. -/
  inner : Bool := false
  /-- The traps of the script, seen from a process inside it. -/
  outerTraps : List (Nat × Bytes) := []
  /-- The built-in command that is running. -/
  builtin : Option Bytes := none
  line : Nat := 0
  /-- The number of loops around the current command. -/
  loops : Nat := 0
  /-- The number of functions that are running. -/
  calls : Nat := 0
  skip : Option Skip := none
  /-- What is done on a signal; zero stands for the end of the script. -/
  traps : List (Nat × Bytes) := []
  /-- The status before the trap that is running. -/
  trapped : Option Nat := none
  /-- The signals to the script that have not been dealt with. -/
  pending : List Nat := []
  documents : Array Word := #[]
  /-- The variables that each running function has made its own, as they were before. -/
  locals : List (List (Bytes × Option Variable)) := []
  /-- The number of the argument in which the next option is looked for. -/
  optionIndex : Nat := 1
  /-- How far into the argument before that the reading of options is. -/
  optionPlace : Nat := 0
  /-- The bits that new files do not get. -/
  mask : Nat := 0o22
  /-- Whether something could not be printed. -/
  broken : Bool := false

/-- A step of a script. -/
abbrev Action := ExceptT Ending (StateM State)

/-- The process of a script. -/
def State.toProcess (s : State) : Process where
  directory := s.directory
  descriptors := s.descriptors
  environment := s.bindings.filterMap fun (name, v) =>
    if v.exported then v.value.map fun value => (name, value) else none
  number := s.process

/-- Does a job as part of a script. -/
def job {α : Type} (j : Job α) : Action α :=
  modifyGet fun s =>
    let (a, files) := (j.run s.toProcess).run s.files
    (a, { s with files })

/-- Sets the status of the last command. -/
def setStatus (n : Nat) : Action Unit := modify fun s => { s with status := n }

/-- Whether an option is set. -/
def hasOption (letter : Char) : Action Bool := return (← get).options.contains (ascii letter)

/-! ### Printing -/

/-- Writes to a descriptor; a failure is remembered. -/
def put (descriptor : Nat) (text : Bytes) : Action Unit := do
  if !text.isEmpty then
    let done ← modifyGet fun s =>
      match (s.descriptors.lookup descriptor).bind fun i => s.files.write i text with
      | some files => (true, { s with files })
      | none => (false, s)
    if !done then modify fun s => { s with broken := true }

/-- Writes to standard output. -/
def say (text : Bytes) : Action Unit := put 1 text

/-- Says something on standard error, in the name of the script, with the line, and in the name of
the built-in command that is running. -/
def complain (text : Bytes) : Action Unit := do
  let s ← get
  let command := match s.builtin with
    | some name => name ++ bytes ": "
    | none => []
  let _ ← job (Job.put 2 (s.zero ++ bytes ": " ++ Numeral.decimal s.line ++ bytes ": " ++ command ++
    text ++ bytes "\n"))

/-- Complains and ends the script, or the built-in command that is running. -/
def fail {α : Type} (text : Bytes) : Action α := do
  complain text
  setStatus 2
  throw .failure

/-! ### Variables -/

/-- The value of a variable. -/
def State.value? (s : State) (name : Bytes) : Option Bytes :=
  (s.bindings.lookup name).bind (·.value)

/-- Puts a variable in place of what has its name. -/
def State.put (s : State) (name : Bytes) (v : Variable) : State :=
  if s.bindings.any (·.1 == name) then
    { s with bindings := s.bindings.map fun (n, w) => (n, if n = name then v else w) }
  else { s with bindings := s.bindings ++ [(name, v)] }

/-- The reading of options starts again at an argument. -/
def State.restartOptions (s : State) (index : Bytes) : State :=
  { s with
    optionIndex := max 1 (Numeral.value 10 (index.takeWhile Bytes.isDigit)), optionPlace := 0 }

/-- Changes a variable, unless it is constant. -/
def change (name : Bytes) (f : Variable → Variable) : Action Unit := do
  let s ← get
  let v := (s.bindings.lookup name).getD {}
  if v.constant then fail (name ++ bytes ": is read only")
  else
    let v := f v
    let v := if s.options.contains (ascii 'a') then { v with exported := true } else v
    let s := s.put name v
    set (if name = bytes "OPTIND" then s.restartOptions (v.value.getD []) else s)

/-- Gives a variable a value. -/
def assign (name value : Bytes) : Action Unit := do
  if isName name then change name fun v => { v with value := some value }
  else fail (name ++ bytes ": bad variable name")

/-- Takes a variable away. -/
def unassign (name : Bytes) : Action Unit := do
  match (← get).bindings.lookup name with
  | none => return
  | some v =>
    if v.constant then fail (name ++ bytes ": is read only")
    else modify fun s => { s with bindings := s.bindings.filter (·.1 != name) }

/-- The separators of fields. -/
def separators : Action Bytes :=
  return ((← get).value? (bytes "IFS")).getD (bytes " \t\n")

/-! ### Variables of a function -/

/-- Remembers a variable as it is, once for each function. -/
def remember (name : Bytes) : Action Unit :=
  modify fun s =>
    match s.locals with
    | frame :: frames =>
      if frame.any (·.1 == name) then s
      else { s with locals := ((name, s.bindings.lookup name) :: frame) :: frames }
    | [] => s

/-- Opens a frame in which variables are remembered. -/
def openFrame : Action Unit := modify fun s => { s with locals := [] :: s.locals }

/-- Puts back the variables of the last frame. -/
def State.closeFrame (s : State) : State :=
  match s.locals with
  | [] => s
  | frame :: frames =>
    let back (s : State) (entry : Bytes × Option Variable) : State :=
      match entry with
      | (name, some v) => s.put name v
      | (name, none) => { s with bindings := s.bindings.filter (·.1 != name) }
    frame.foldl back { s with locals := frames }

/-! ### Processes inside a script -/

/-- The traps that a new process keeps: those that ignore a signal. -/
def inheritedTraps (traps : List (Nat × Bytes)) : List (Nat × Bytes) :=
  traps.filter fun (_, action) => action.isEmpty

/-- Does something, and undoes it with `undo` even if it fails. -/
def ensuring {α : Type} (undo : State → State) (body : Action α) : Action α :=
  ExceptT.mk do
    let result ← body.run
    modify undo
    return result

/-- Runs a body as a process of its own and gives its status: of what it does only the files
remain. -/
def isolated (body : Action Unit) : Action Nat := do
  let before ← get
  let (result, after) := (body.run).run { before with
    inner := true
    outerTraps := if before.inner then before.outerTraps else before.traps
    traps := inheritedTraps before.traps
    jobs := []
    loops := 0
    skip := none
    pending := [] }
  set { before with files := after.files, pending := before.pending ++ after.pending }
  match result with
  | .error (.signal n) => throw (.signal n)
  | _ => return after.status

end MacroConstants.Shell
