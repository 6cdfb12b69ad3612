import MacroConstants.Shell.Builtin.Variables
import MacroConstants.Shell.Lookup
import MacroConstants.Shell.Signal
import MacroConstants.Shell.Token

/-!
# Built-in commands for processes, directories and names

* `Shell.exit`, `Shell.leave`, `Shell.goBack` — early ends of scripts, loops and functions.
* `Shell.kill`, `Shell.trap`, `Shell.wait` — signals and processes.
* `Shell.changeDirectory`, `Shell.printDirectory` — the working directory.
* `Shell.aliasCommand`, `Shell.describe` — what names stand for.
-/

namespace MacroConstants.Shell

/-! ### Early ends -/

/-- Ends the script.  In a trap the status is that before it, unless one is given. -/
def exit : Builtin := fun args => do
  match args with
  | a :: _ => setStatus (← numberArgument a)
  | [] => modify fun s => { s with status := s.trapped.getD s.status }
  throw .exit

/-- Leaves loops, or goes on with the next round of one. -/
def leave (again : Bool) : Builtin := fun args => do
  let n ← match args with
    | a :: _ => numberArgument a
    | [] => pure 1
  if n = 0 then fail (bytes "Illegal number: " ++ args.headD [])
  else
    modify fun s =>
      let n := min n s.loops
      if n = 0 then s
      else { s with skip := some (if again then .continue n else .break n) }
    return 0

/-- Goes back from a function or sourced script. -/
def goBack : Builtin := fun args => do
  let n ← match args with
    | a :: _ => numberArgument a
    | [] => pure (← get).status
  modify fun s => { s with skip := some .return }
  return n

/-! ### Signals -/

/-- Shows signals, or the one of a status. -/
def listSignals (args : List Bytes) : Action Nat := do
  match args with
  | [] =>
    (List.range 65).forM fun n => say ((if n = 0 then bytes "0" else signalName n) ++ bytes "\n")
    return 0
  | a :: _ =>
    let n ← numberArgument a
    let n := if 128 < n then n - 128 else n
    if 0 < n ∧ n < 65 then
      say (signalName n ++ bytes "\n")
      return 0
    else fail (bytes "invalid signal number or exit status: " ++ a)

/-- Sends a signal to a process; fails if there is none of that number. -/
def send (signal : Nat) (target : Bytes) : Action Bool := do
  let digits := if target.head? = some (ascii '-') then target.tail else target
  let n ← numberArgument digits
  let s ← get
  if n = s.process ∨ n = 0 then
    let traps := if s.inner then s.outerTraps else s.traps
    match traps.lookup signal with
    | some action =>
      if signal ≠ 0 ∧ signal ≠ 9 then
        if !action.isEmpty then set { s with pending := s.pending ++ [signal] }
        return true
      else if isHarmless signal then return true
      else throw (.signal signal)
    | none => if isHarmless signal then return true else throw (.signal signal)
  else if s.jobs.any (·.1 == n) then return true
  else
    complain (bytes "No such process\n")
    return false

/-- What is said of a wrong use of `kill`. -/
def killUsage : Bytes :=
  bytes "Usage: kill [-s sigspec | -signum | -sigspec] [pid | job]... or\nkill -l [exitstatus]"

/-- Sends a signal to processes, or shows signals. -/
def kill : Builtin := fun args => do
  let direct := match args with
    | (0x2d :: name) :: _ => (signal? name).filter fun n => n ≠ 0 || name == bytes "0"
    | _ => none
  let (signal, lists, targets) ← match direct with
    | some n => pure (n, false, args.tail)
    | none =>
      let (flags, rest) ← options "ls:" args
      let named := flags.filter (·.1 == ascii 's')
      let signal ← match named.getLast? with
        | none => pure 15
        | some (_, name) =>
          match signal? name with
          | some n => pure n
          | none => fail (bytes "invalid signal number or name: " ++ name)
      pure (signal, flags.any (·.1 == ascii 'l'), rest)
  if lists then listSignals targets
  else if targets.isEmpty then fail killUsage
  else
    let sent ← targets.mapM (send signal)
    return if sent.all (· == true) then 0 else 1

/-- Shows the traps. -/
def showTraps : Action Unit := do
  let s ← get
  (List.range 65).forM fun n =>
    match s.traps.lookup n with
    | some action =>
      say (bytes "trap -- " ++ quotedText action ++ bytes " " ++ signalName n ++ bytes "\n")
    | none => pure ()

/-- Sets what is done on signals. -/
def setTraps (action : Option Bytes) : List Bytes → Action Nat
  | [] => return 0
  | name :: names => do
    match signal? name with
    | none =>
      put 2 (bytes "trap: " ++ name ++ bytes ": bad trap\n")
      return 1
    | some n =>
      modify fun s =>
        let others := s.traps.filter (·.1 != n)
        { s with traps := match action with
            | some a => (n, a) :: others
            | none => others }
      setTraps action names

/-- Sets what is done on signals, or shows it. -/
def trap : Builtin := fun args => do
  let (_, args) ← options "" args
  match args with
  | [] =>
    showTraps
    return 0
  | [name] => setTraps none [name]
  | first :: rest =>
    if !first.isEmpty && first.all Bytes.isDigit then setTraps none args
    else setTraps (if first = bytes "-" then none else some first) rest

/-- Waits for processes, which have all come to an end; the status is that of the last one. -/
def wait : Builtin := fun args => do
  let (_, args) ← options "" args
  match args.getLast? with
  | none =>
    modify fun s => { s with jobs := [] }
    return 0
  | some a =>
    let n ← numberArgument a
    return ((← get).jobs.lookup n).getD 127

/-! ### The working directory -/

/-- A path as text. -/
def pathText (p : Path) : Bytes :=
  if p.isEmpty then bytes "/" else p.flatMap fun name => bytes "/" ++ name

/-- Goes to a directory. -/
def changeDirectory : Builtin := fun args => do
  let (_, args) ← options "LP" args
  let s ← get
  let back := args.head? == some (bytes "-")
  let target := match args with
    | [] => (s.value? (bytes "HOME")).getD []
    | a :: _ => if back then (s.value? (bytes "OLDPWD")).getD [] else a
  if target.isEmpty then return 0
  else
    match s.files.find s.directory target with
    | .ok (place, .directory) =>
      let before := pathText s.directory
      modify fun s => { s with directory := place }
      let keep (name : String) (text : Bytes) : Action Unit :=
        change (bytes name) fun _ => { value := some text, exported := true }
      keep "OLDPWD" before
      keep "PWD" (pathText place)
      if back then say (pathText place ++ bytes "\n")
      return 0
    | _ => fail (bytes "can't cd to " ++ target)

/-- Shows the working directory. -/
def printDirectory : Builtin := fun args => do
  let (_, _) ← options "LP" args
  say (pathText (← get).directory ++ bytes "\n")
  return 0

/-! ### Names -/

/-- An alias as it is shown. -/
def aliasText (name value : Bytes) : Bytes := name ++ bytes "=" ++ quotedText value

/-- Sets or shows aliases. -/
def aliasCommand : Builtin := fun args => do
  if args.isEmpty then
    let all := (← get).aliases.mergeSort fun a b => FileSystem.before a.1 b.1
    all.forM fun (name, v) => say (aliasText name v ++ bytes "\n")
    return 0
  else
    let done ← args.mapM fun a => do
      match splitAssignment a with
      | (name, some v) =>
        modify fun s => { s with aliases := (name, v) :: s.aliases.filter (·.1 != name) }
        return true
      | (name, none) =>
        match (← get).aliases.lookup name with
        | some v =>
          say (aliasText name v ++ bytes "\n")
          return true
        | none =>
          put 2 (bytes "alias: " ++ name ++ bytes " not found\n")
          return false
    return if done.all (· == true) then 0 else 1

/-- Takes aliases away. -/
def unaliasCommand : Builtin := fun args => do
  let (flags, names) ← options "a" args
  if !flags.isEmpty then
    modify fun s => { s with aliases := [] }
    return 0
  else
    let done ← names.mapM fun name => do
      if ((← get).aliases.lookup name).isSome then
        modify fun s => { s with aliases := s.aliases.filter (·.1 != name) }
        return true
      else
        put 2 (bytes "unalias: " ++ name ++ bytes " not found\n")
        return false
    return if done.all (· == true) then 0 else 1

/-- Whether a command can be started by its name. -/
def isRunnable : Node → Bool
  | .file _ executable => executable
  | .program _ => true
  | _ => false

/-- Says what a name stands for, at length or in brief; the status says whether it stands for
anything. -/
def describe (atLength : Bool) (name : Bytes) : Action Nat := do
  let s ← get
  let tell (long brief : Bytes) : Action Nat := do
    say ((if atLength then name ++ long else brief) ++ bytes "\n")
    return 0
  if reservedWords.contains name then tell (bytes " is a shell keyword") name
  else
    match s.aliases.lookup name with
    | some v => tell (bytes " is an alias for " ++ v) (bytes "alias " ++ aliasText name v)
    | none =>
      let unknown : Action Nat := do
        if atLength then say (name ++ bytes ": not found\n")
        return 127
      match s.meaning true name with
      | .function _ => tell (bytes " is a shell function") name
      | .builtin kind =>
        tell (bytes (if kind.special then " is a special shell builtin" else " is a shell builtin"))
          name
      | .program path node => if isRunnable node then tell (bytes " is " ++ path) path else unknown
      | .unknown _ => unknown

/-- Says at length what names stand for. -/
def typeCommand : Builtin := fun args => do
  let codes ← args.mapM (describe true)
  return codes.foldl (fun a b => a ||| b) 0

/-- The letters of the rights that a mask leaves to the three classes of users. -/
def rightsUnder (mask : Nat) : Bytes :=
  let rights (n : Nat) : Bytes :=
    (if n &&& 4 = 0 then bytes "r" else []) ++ (if n &&& 2 = 0 then bytes "w" else [])
      ++ (if n &&& 1 = 0 then bytes "x" else [])
  bytes "u=" ++ rights (mask / 64) ++ bytes ",g=" ++ rights (mask / 8) ++ bytes ",o=" ++ rights mask

/-- Shows or sets the bits that new files do not get. -/
def umask : Builtin := fun args => do
  let (flags, args) ← options "S" args
  match args with
  | [] =>
    let mask := (← get).mask
    let digits := Nat.toDigits 8 mask
    let octal := (List.replicate (4 - digits.length) '0' ++ digits).map ascii
    say ((if flags.isEmpty then octal else rightsUnder mask) ++ bytes "\n")
  | a :: _ =>
    if (a.head?.map Bytes.isDigit).getD false then
      if a.all Bytes.isOctal then modify fun s => { s with mask := Numeral.value 8 a % 512 }
      else fail (bytes "Illegal number: " ++ a)
    else if a.all (bytes "ugoarwxXst+-=,").contains then pure ()
    else fail (bytes "Illegal mode: " ++ a)
  return 0

/-- Looks for programs on the search path. -/
def hash : Builtin := fun args => do
  let (_, names) ← options "rv" args
  let s ← get
  let found ← names.mapM fun name => do
    match s.meaning true name with
    | .unknown _ =>
      complain (name ++ bytes ": not found")
      return false
    | _ => return true
  return if found.all id then 0 else 1

/-- Shows the time that was used. -/
def times : Builtin := fun _ => do
  say (bytes "0m0.000000s 0m0.000000s\n0m0.000000s 0m0.000000s\n")
  return 0

/-- The built-in commands that need nothing but the state. -/
def simpleBuiltins : List (Bytes × Builtin) :=
  [(bytes ":", fun _ => return 0), (bytes "true", fun _ => return 0),
   (bytes "false", fun _ => return 1), (bytes "echo", echo), (bytes "printf", printf),
   (bytes "test", test false), (bytes "[", test true), (bytes "read", read),
   (bytes "export", exportCommand), (bytes "readonly", readonlyCommand), (bytes "unset", unset),
   (bytes "local", makeLocal), (bytes "set", setCommand), (bytes "shift", shift),
   (bytes "getopts", getopts), (bytes "exit", exit), (bytes "break", leave false),
   (bytes "continue", leave true), (bytes "return", goBack), (bytes "kill", kill),
   (bytes "trap", trap), (bytes "wait", wait), (bytes "cd", changeDirectory),
   (bytes "chdir", changeDirectory), (bytes "pwd", printDirectory), (bytes "alias", aliasCommand),
   (bytes "unalias", unaliasCommand), (bytes "type", typeCommand), (bytes "umask", umask),
   (bytes "times", times), (bytes "hash", hash), (bytes "jobs", fun _ => return 0),
   (bytes "fg", fun _ => fail (bytes "No current job")),
   (bytes "bg", fun _ => fail (bytes "No current job")),
   (bytes "ulimit", fun _ => do
      say (bytes "unlimited\n")
      return 0)]

end MacroConstants.Shell
