import MacroConstants.Shell.Builtin.Process
import MacroConstants.Shell.Parser
import MacroConstants.Shell.Redirect
import MacroConstants.Words

/-!
# Running shell scripts

* `Shell.Engine` — what a command needs to run others: commands inside it and programs.
* `Shell.runText` — the commands of a text, one after the other.
* `Shell.simple` — a simple command.
* `Shell.step` — a command, given how the commands inside it are run.
* `Shell.run` — a shell with its arguments.
-/

namespace MacroConstants.Shell

/-- What a command needs to run others. -/
structure Engine where
  /-- Runs a command; `tested` if its failure is no reason to end the script. -/
  run : (tested : Bool) → Command → Action Nat
  launch : Launcher

namespace Engine

variable (e : Engine)

/-! ### Texts -/

/-- Reads the next command of a text and gives it with the reader after it. -/
def readNext (r : Reader) : Action (Option Command × Reader) := do
  let s ← get
  let (result, r) := (ExceptT.run nextCommand).run
    { r with documents := s.documents, aliases := s.aliases }
  modify fun s => { s with documents := r.documents }
  match result with
  | .ok c => return (c, r)
  | .error text =>
    modify fun s => { s with line := r.line }
    fail text

/-- Runs the commands a reader gives; the status is that of the last one. -/
def runReader (tested : Bool) : Nat → Nat → Reader → Action Nat
  | 0, status, _ => return status
  | n + 1, status, r => do
    match ← readNext r with
    | (none, _) => return status
    | (some c, r) =>
      let result ← e.run tested c
      let status := if c.isNothing then status else result
      if (← get).skip.isSome then return status
      else runReader tested n status r

/-- Runs the commands of a text. -/
def runText (tested : Bool) (text : Bytes) : Action Nat :=
  e.runReader tested readingLimit 0 { rest := text }

/-- A sourced script ends where it is left. -/
def returnHere : Action Unit :=
  modify fun s => if s.skip = some .return then { s with skip := none } else s

/-! ### Signals and ends -/

/-- Does what the traps of the pending signals ask for. -/
def handleSignals : Action Unit := do
  let s ← get
  if !s.inner && !s.pending.isEmpty && s.skip.isNone then
    let outer := s.trapped
    let status := s.trapped.getD s.status
    set { s with pending := [], trapped := some status }
    s.pending.forM fun n => do
      match (← get).traps.lookup n with
      | none => return
      | some action =>
        let _ ← e.runText false action
        if (← get).skip != some .return then setStatus status
    modify fun s => { s with trapped := outer }

/-- Does what the trap of the end asks for, once; the status stays unless the trap gives one. -/
def atEnd : Action Unit := do
  let s ← get
  match s.traps.lookup 0 with
  | none => return
  | some action =>
    let status := s.status
    set { s with
      traps := s.traps.filter (·.1 != 0)
      skip := none
      trapped := some status }
    let body : Action Unit := do
      let _ ← e.runText false action
      setStatus status
    tryCatch body fun
      | .signal n => throw (.signal n)
      | _ => return

/-- Runs a body up to its end, early or not, and then the trap of the end. -/
def toTheEnd (body : Action Unit) : Action Unit := do
  tryCatch body fun
    | .signal n => throw (.signal n)
    | _ => return
  e.atEnd

/-- Runs a body as a process of its own; its status, as far as a process has one. -/
def asProcess (body : Action Unit) : Action Nat := return (← isolated (e.toTheEnd body)) % 256

/-- The output of a command that is run as a process of its own. -/
def output (c : Command) : Action Bytes := do
  if c.isNothing then return []
  let s ← get
  let (number, files) := s.files.store .empty
  let (file, files) := files.openContent number .append
  set { s with files }
  let status ← e.asProcess do
    point 1 file
    let _ ← e.run false c
  modify fun s => { s with outputStatus := status }
  return ((← get).files.content number).toList

/-! ### Programs -/

/-- The status for a program that cannot be started. -/
def startFault (fault : PathFault) : Nat :=
  match fault with
  | .missing | .notDirectory => 127
  | _ => 126

/-- Runs a program and waits for it. -/
def runProgram (name path : Bytes) (node : Node) (args : List Bytes) : Action Nat := do
  match ← job (start e.launch path node args) with
  | .ok (.status n) => return n % 256
  | .ok (.signal n) =>
    if n ≠ 2 ∧ n ≠ 13 then put 2 (signalMessage n ++ bytes "\n")
    return 128 + n
  | .error fault =>
    complain (name ++ bytes ": " ++ PathFault.wording "not found" fault)
    return startFault fault

/-! ### Built-in commands that run others -/

/-- Runs its arguments as a command line. -/
def eval (tested : Bool) : Builtin := fun args => do
  if args.isEmpty then return 0 else e.runText tested (joinWords args)

/-- The script a name stands for: a path with a slash, or a file on the search path. -/
def sourcePath (name : Bytes) : Action Bytes := do
  if name.contains (ascii '/') then return name
  else
    let s ← get
    let directories := ((s.value? (bytes "PATH")).getD defaultSearchPath).splitOn (ascii ':')
    match s.files.search (· matches .file ..) s.directory name directories .missing with
    | .ok (path, _) => return path
    | .error _ => fail (name ++ bytes ": not found")

/-- Runs a script in the same process. -/
def source : Builtin := fun args => do
  let (_, args) ← options "" args
  match args with
  | [] => return 0
  | name :: _ =>
    let path ← sourcePath name
    let s ← get
    match s.files.readPath s.directory path with
    | .error fault =>
      fail (bytes "cannot open " ++ path ++ bytes ": " ++ PathFault.wording "No such file" fault)
    | .ok text =>
      modify fun s => { s with builtin := some path }
      let status ← e.runText false text
      returnHere
      return status

/-- Runs a program in place of the script. -/
def execute : Builtin := fun args => do
  match args with
  | [] => return 0
  | name :: args =>
    match (← get).program? name with
    | .error fault =>
      complain (name ++ bytes ": " ++ PathFault.wording "not found" fault)
      setStatus (startFault fault)
      throw .exit
    | .ok (path, node) =>
      match ← job (start e.launch path node args) with
      | .ok (.status n) =>
        setStatus n
        modify fun s => { s with traps := [] }
        throw .exit
      | .ok (.signal n) => throw (.signal n)
      | .error fault =>
        complain (name ++ bytes ": " ++ PathFault.wording "not found" fault)
        setStatus (startFault fault)
        throw .exit

/-- Says what names stand for, in the way the flags ask for. -/
def describeAll (flags : List Flag) (names : List Bytes) : Action Nat := do
  match names with
  | [] => return 0
  | name :: _ => describe (flags.any (·.1 == ascii 'V')) name

/-- The built-in command of a name. -/
def builtin? (tested : Bool) (name : Bytes) : Option Builtin :=
  if name = bytes "eval" then some (e.eval tested)
  else if name = bytes "." then some e.source
  else if name = bytes "exec" then some e.execute
  else if name = bytes "command" then some fun args => do
    let (flags, names) ← options "pvV" args
    describeAll flags names
  else simpleBuiltins.lookup name

/-- Runs a built-in command.  Unless it is a special one its failure is just a status. -/
def runBuiltin (tested special : Bool) (name : Bytes) (args : List Bytes) : Action Nat := do
  let outer := (← get).builtin
  let body : Action Nat := ensuring (fun s => { s with builtin := outer }) do
    modify fun s => { s with builtin := some name, broken := false }
    let status ← ((e.builtin? tested name).getD fun _ => return 0) args
    if (← get).broken then
      modify fun s => { s with broken := false }
      complain (name ++ bytes ": I/O error")
      return status ||| 1
    else return status
  tryCatch body fun
    | .failure => if special then throw .failure else return (← get).status
    | ending => throw ending

/-! ### Functions -/

/-- The deepest nesting of functions. -/
def deepestCall : Nat := 1000

/-- Runs a function. -/
def runFunction (tested : Bool) (f : Function) (args : List Bytes) : Action Nat := do
  let before ← get
  if deepestCall ≤ before.calls then
    fail (bytes "Maximum function recursion depth (" ++ Numeral.decimal deepestCall ++
      bytes ") reached")
  else
    let undo (s : State) : State :=
      { s.closeFrame with
        arguments := before.arguments
        optionIndex := before.optionIndex
        optionPlace := before.optionPlace
        loops := before.loops
        calls := before.calls }
    ensuring undo do
      openFrame
      modify fun s =>
        { s with
          arguments := args, optionIndex := 1, optionPlace := 0, loops := 0, calls := s.calls + 1 }
      let _ ← e.run tested f.body
      returnHere
      return (← get).status

/-! ### Simple commands -/

/-- The arguments of `command` that name another command to run: nothing if it has other work. -/
def commandArguments (words : List Bytes) : Option (List Bytes) :=
  match words with
  | (0x2d :: c :: letters) :: rest =>
    if c = ascii '-' ∧ letters.isEmpty then (if rest.isEmpty then none else some rest)
    else if (c :: letters).all (· == ascii 'p') then commandArguments rest
    else none
  | [] => none
  | words => some words

/-- What a simple command comes to: the words without those of `command`, what their first one
stands for, and whether its failure ends the script. -/
structure Resolved where
  words : List Bytes
  meaning : Meaning
  /-- Nothing while no built-in command was met. -/
  special : Option Bool := none

/-- Looks through `command`. -/
def resolve : Nat → Bool → Option Bool → List Bytes → Action Resolved
  | 0, _, special, words => return ⟨words, .unknown .missing, special⟩
  | n + 1, functions, special, words => do
    let meaning := (← get).meaning functions (words.headD [])
    match meaning with
    | .builtin kind =>
      let special := some (special.getD kind.special)
      if words.head? = some (bytes "command") then
        match commandArguments words.tail with
        | some rest => resolve n false special rest
        | none => return ⟨words, meaning, special⟩
      else return ⟨words, meaning, special⟩
    | meaning => return ⟨words, meaning, special⟩

/-- Whether an argument of a command is an assignment that is not cut into fields. -/
def keepsWhole (first : Option Bytes) (w : Word) : Bool :=
  match first.bind fun name => builtins.lookup name with
  | some kind => kind.assigns && (Readers.assignment? w).isSome
  | none => false

/-- Expands the words of a command. -/
def expandWords (words : List Word) : Action (List Bytes) := do
  let mut found : List Bytes := []
  for w in words do
    let first := match found with
      | name :: rest => if name = bytes "command" then rest.head? else some name
      | [] => none
    if keepsWhole first w then
      match Readers.assignment? w with
      | some (name, v) => found := found ++ [name ++ bytes "=" ++ (← expandValue e.output v)]
      | none => pure ()
    else found := found ++ (← expandFields e.output w)
  return found

/-- Shows a command before it runs. -/
def trace (descriptors : List (Nat × Nat)) (assigned words : List Bytes) : Action Unit := do
  if ← hasOption 'x' then
    let sign := ((← get).value? (bytes "PS4")).getD []
    let s ← get
    let line := sign ++ joinWords (assigned ++ words) ++ bytes "\n"
    match (descriptors.lookup 2).bind fun i => s.files.write i line with
    | some files => set { s with files }
    | none => pure ()

/-- Carries out the assignments before a command, which are its own if `own`. -/
def assignBefore (own exports : Bool) (assignments : List (Bytes × Word)) : Action (List Bytes) :=
  assignments.mapM fun (name, w) => do
    let v ← expandValue e.output w
    if own then remember name
    if own || exports then change name fun old => { old with value := some v, exported := true }
    else assign name v
    return name ++ bytes "=" ++ v

/-- Runs what a simple command stands for. -/
def perform (tested : Bool) (r : Resolved) : Action Nat := do
  match r.words with
  | [] => return (← get).outputStatus
  | name :: args =>
    match (← get).meaning (r.special.isNone) name with
    | .function f => e.runFunction tested f args
    | .builtin _ => e.runBuiltin tested (r.special.getD false) name args
    | .program path node => e.runProgram name path node args
    | .unknown fault =>
      complain (name ++ bytes ": " ++ PathFault.wording "not found" fault)
      return 127

/-- Runs a simple command. -/
def simple (tested : Bool) (line : Nat) (assignments : List (Bytes × Word)) (words : List Word)
    (rs : List Redirection) : Action Nat := do
  modify fun s => { s with line, outputStatus := 0 }
  let words ← e.expandWords words
  let r : Resolved ←
    if words.isEmpty then pure { words := [], meaning := .builtin {} }
    else resolve (words.length + 1) true none words
  let special := r.special.getD false
  let descriptors := (← get).descriptors
  let own := !words.isEmpty && !special
  let executes := r.words.head? == some (bytes "exec") && r.special.isSome
  let undo (s : State) : State := if own then s.closeFrame else s
  let failed : Action Nat := if special then throw .failure else return 2
  ensuring undo do
    if own then openFrame
    if ← redirectAll e.output rs then
      let restore (s : State) : State := { s with descriptors }
      let body : Action Nat := do
        let assigned ← e.assignBefore own (executes && 1 < r.words.length) assignments
        if !(assigned.isEmpty && words.isEmpty) then trace descriptors assigned words
        e.perform tested r
      if executes then body else ensuring restore body
    else
      modify fun s => { s with descriptors }
      failed

/-! ### Compound commands -/

/-- What a loop does next: the number of loops that are still to be left, if it is to be left. -/
def afterRound : Action Bool := do
  match (← get).skip with
  | none => return false
  | some .return => return true
  | some (.break n) =>
    modify fun s => { s with skip := if n ≤ 1 then none else some (.break (n - 1)) }
    return true
  | some (.continue n) =>
    modify fun s => { s with skip := if n ≤ 1 then none else some (.continue (n - 1)) }
    return 1 < n

/-- Runs a body inside a loop. -/
def inLoop {α : Type} (body : Action α) : Action α := do
  let loops := (← get).loops
  ensuring (fun s => { s with loops }) do
    modify fun s => { s with loops := loops + 1 }
    body

/-- Runs a loop; its status is that of the body's last round. -/
def loop (tested whileFails : Bool) (test body : Command) : Nat → Nat → Action Nat
  | 0, status => return status
  | n + 1, status => do
    let code ← e.run true test
    if (← get).skip.isSome then
      let left ← afterRound
      if (← get).skip = some .return then return code
      else if left then return status
      else loop tested whileFails test body n status
    else if (code == 0) == whileFails then return status
    else
      let status ← e.run tested body
      if ← afterRound then return status else loop tested whileFails test body n status

/-- Runs a body for each of a list of values. -/
def each (tested : Bool) (name : Bytes) (body : Command) : List Bytes → Nat → Action Nat
  | [], status => return status
  | v :: values, _ => do
    assign name v
    let status ← e.run tested body
    if ← afterRound then return status else each tested name body values status

/-- Whether one of a list of patterns covers a text. -/
def covers (text : Bytes) : List Word → Action Bool
  | [] => return false
  | w :: ws => do
    if Wildcard.covers (← expandPattern e.output w) text then return true else covers text ws

/-- Runs the first arm of which a pattern covers a text. -/
def choose (tested : Bool) (text : Bytes) : List Arm → Action Nat
  | [] => return 0
  | .arm patterns body :: arms => do
    if ← e.covers text patterns then
      if body.isNothing then return 0 else e.run tested body
    else choose tested text arms

/-- Runs the stages of a pipeline, each with the output of the one before as its input. -/
def stages (tested : Bool) : List Command → Option Nat → Nat → Action Nat
  | [], _, status => return status
  | c :: cs, input, _ => do
    let s ← get
    let (number, files) := s.files.store .empty
    let (writing, files) := files.openContent number .append
    let (reading, files) := files.openContent number .read
    set { s with files }
    let status ← e.asProcess do
      if let some i := input then point 0 i
      if !cs.isEmpty then point 1 writing
      let _ ← e.run tested c
    stages tested cs (some reading) status

/-- The number of the next background process. -/
def nextJob : Action Nat := do
  let s ← get
  return s.lastJob.getD s.process + 1

/-- Runs a body as a process in the background, which has come to its end before anything else. -/
def inBackground (body : Action Unit) : Action Nat := do
  let number ← nextJob
  let status ← e.asProcess body
  modify fun s => { s with jobs := (number, status) :: s.jobs, lastJob := some number }
  return 0

/-- A command without what is done before and after each one; nothing if it leaves the status as it
is.  The second result says whether a failure ends the script, if that is asked for. -/
def carryOut (tested : Bool) (c : Command) : Action (Option Nat × Bool) := do
  match c with
  | .nothing => return (none, false)
  | .simple line assignments words rs =>
    return (some (← e.simple tested line assignments words rs), true)
  | .negated body =>
    let status ← e.run true body
    return (some (if status = 0 then 1 else 0), false)
  | .redirected line body rs =>
    modify fun s => { s with line }
    return (some (← redirecting e.output rs (return 2) (e.run tested body)), false)
  | .subshell line body rs =>
    modify fun s => { s with line }
    let status ← e.asProcess do
      if ← redirectAll e.output rs then
        let _ ← e.run tested body
      else throw .failure
    return (some status, true)
  | .background body rs =>
    let status ← e.inBackground do
      if ← redirectAll e.output rs then
        let _ ← e.run false body
      else throw .failure
    return (some status, true)
  | .pipeline stages background =>
    if background then
      let status ← e.inBackground do
        setStatus (← e.stages tested stages none 0)
      return (some status, true)
    else return (some (← e.stages tested stages none 0), true)
  | .sequence first second =>
    let _ ← e.run tested first
    if (← get).skip.isSome then return (none, false)
    else return (some (← e.run tested second), false)
  | .andThen first second =>
    let status ← e.run true first
    if status ≠ 0 ∨ (← get).skip.isSome then return (none, false)
    else return (some (← e.run tested second), false)
  | .orElse first second =>
    let status ← e.run true first
    if status = 0 ∨ (← get).skip.isSome then return (none, false)
    else return (some (← e.run tested second), false)
  | .conditional test yes no =>
    let status ← e.run true test
    if (← get).skip.isSome then return (none, false)
    else if status = 0 then return (some (← e.run tested yes), false)
    else if no.isNothing then return (some 0, false)
    else return (some (← e.run tested no), false)
  | .loop whileFails test body =>
    return (some (← inLoop (e.loop tested whileFails test body readingLimit 0)), false)
  | .forEach line name words body =>
    modify fun s => { s with line }
    let values ← words.mapM (expandFields e.output)
    return (some (← inLoop (e.each tested name body values.flatten 0)), false)
  | .choice line subject arms =>
    modify fun s => { s with line }
    let text ← expandText e.output subject
    return (some (← e.choose tested text arms), false)
  | .define line name body =>
    modify fun s =>
      { s with functions := (name, ⟨line, body⟩) :: s.functions.filter (·.1 != name) }
    return (some 0, false)

/-- Runs a command, and deals with signals before and after it. -/
def step (tested : Bool) (c : Command) : Action Nat := do
  if c.isNothing || (← hasOption 'n') then return (← get).status
  e.handleSignals
  let (status, counts) ← e.carryOut tested c
  if let some n := status then setStatus n
  e.handleSignals
  let code := (← get).status
  if counts && !tested && code != 0 && (← hasOption 'e') then throw .exit
  return code

end Engine

/-- Runs a command, with at most `n` levels of nesting. -/
def runCommand (launch : Launcher) : Nat → Bool → Command → Action Nat
  | 0, _, _ => throw (.signal 11)
  | n + 1, tested, c => Engine.step ⟨runCommand launch n, launch⟩ tested c

/-- The engine for whole scripts. -/
def engine (launch : Launcher) : Engine := ⟨runCommand launch nestingLimit, launch⟩

/-! ### A shell as a program -/

/-- The variables a script starts with. -/
def initialVariables (p : Process) : List (Bytes × Variable) :=
  let inherited := p.environment.filterMap fun (name, v) =>
    if isName name ∧ name ≠ bytes "IFS" ∧ name ≠ bytes "OPTIND" then
      some (name, { value := some v, exported := true })
    else none
  let own : List (Bytes × Variable) :=
    [(bytes "PATH", { value := some defaultSearchPath }),
     (bytes "PS1", { value := some (bytes "# ") }),
     (bytes "PS2", { value := some (bytes "> ") }), (bytes "PS4", { value := some (bytes "+ ") }),
     (bytes "PPID", { value := some (Numeral.decimal (p.number - 1)) }),
     (bytes "PWD", { value := some (pathText p.directory), exported := true })]
  let fixed : List (Bytes × Variable) :=
    [(bytes "IFS", { value := some (bytes " \t\n") }),
     (bytes "OPTIND", { value := some (bytes "1") })]
  inherited ++ own.filter (fun (name, _) => inherited.all (·.1 != name)) ++ fixed

/-- The state a script starts in. -/
def initialState (p : Process) (files : FileSystem) (zero : Bytes) (arguments : List Bytes) :
    State where
  files
  directory := p.directory
  descriptors := p.descriptors
  bindings := initialVariables p
  zero
  arguments
  process := p.number

/-- What a shell is asked to run. -/
inductive Work where
  | text (t : Bytes)
  | file (path : Bytes)
  | input

/-- The options in front of a shell's arguments; a `c` among them asks for a text. -/
def shellOptions : Nat → Bool → List Bytes → Action (Bool × List Bytes)
  | 0, text, args => return (text, args)
  | n + 1, text, args => do
    match args with
    | [0x2d] :: rest | [0x2d, 0x2d] :: rest => return (text, rest)
    | (sign :: letters) :: rest =>
      if sign = ascii '-' ∨ sign = ascii '+' then
        let on := sign == ascii '-'
        let others := letters.filter fun c => c != ascii 'c' && c != ascii 'l'
        let rest ← setGroup on others rest
        shellOptions n (text || letters.contains (ascii 'c')) rest
      else return (text, args)
    | args => return (text, args)

/-- Runs what a shell is asked to run. -/
def runWork (e : Engine) (work : Work) : Action Unit := do
  match work with
  | .text t =>
    let _ ← e.runText false t
  | .input =>
    let t ← job (Job.takeAll 0)
    let _ ← e.runText false (t.getD [])
  | .file path =>
    match ← job (Job.readPath path) with
    | .ok t =>
      modify fun s => { s with zero := path }
      let _ ← e.runText false t
    | .error fault =>
      fail (bytes "cannot open " ++ path ++ bytes ": " ++ PathFault.wording "No such file" fault)

/-- Runs a shell with its arguments, under the name it was started by. -/
def main (e : Engine) (args : List Bytes) : Action Unit := do
  let (text, rest) ← shellOptions (args.length + 1) false args
  match text, rest with
  | true, [] => fail (bytes "-c requires an argument")
  | true, t :: names =>
    modify fun s => { s with zero := names.headD s.zero, arguments := names.tail }
    runWork e (.text t)
  | false, [] => runWork e .input
  | false, path :: names =>
    if (← get).options.contains (ascii 's') then
      modify fun s => { s with arguments := rest }
      runWork e .input
    else
      modify fun s => { s with arguments := names }
      runWork e (.file path)

/-- Runs a shell as a process. -/
def run (launch : Launcher) (name : Bytes) (args : List Bytes) : Job ExitStatus := do
  let p ← MonadReader.read
  let files ← get
  let e := engine launch
  let (result, s) := ((e.toTheEnd (main e args)).run).run (initialState p files name [])
  set s.files
  match result with
  | .error (.signal n) => return .signal n
  | _ => return .status (s.status % 256)

end MacroConstants.Shell
