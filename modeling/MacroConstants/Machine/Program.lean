import MacroConstants.Machine.Process

/-!
# Programs

* `Launcher` — runs an installed program.
* `FileSystem.program` — the program that a name stands for.
* `start` — runs what is found at a path, perhaps by the program that its first line names.
-/

namespace MacroConstants

/-- Runs an installed program, by its name, with arguments. -/
abbrev Launcher := Bytes → List Bytes → Job ExitStatus

/-- The search path when none is set. -/
def defaultSearchPath : Bytes :=
  bytes "/usr/local/sbin:/usr/local/bin:/usr/sbin:/usr/bin:/sbin:/bin"

/-- Searches directories for a name: the first thing of that name that is wanted.  Others are passed
over, but remembered as the reason why nothing is found. -/
def FileSystem.search (f : FileSystem) (wanted : Node → Bool) (directory : Path) (name : Bytes) :
    List Bytes → PathFault → Except PathFault (Bytes × Node)
  | [], fault => .error fault
  | d :: ds, fault =>
    let path := if d.isEmpty then name else d ++ bytes "/" ++ name
    match f.find directory path with
    | .ok (_, node) =>
      if wanted node then .ok (path, node) else f.search wanted directory name ds .denied
    | .error _ => f.search wanted directory name ds fault

/-- The program that a name stands for: what is at a path with a slash, or what is found on a search
path. -/
def FileSystem.program (f : FileSystem) (directory : Path) (searchPath : Option Bytes)
    (name : Bytes) : Except PathFault (Bytes × Node) :=
  if name.contains (ascii '/') then (f.find directory name).map fun (_, node) => (name, node)
  else
    let path := searchPath.getD defaultSearchPath
    f.search Node.isExecutable directory name (path.splitOn (ascii ':')) .missing

/-- The program that runs a script, with its arguments, from the script's first line. -/
def interpreter? (text : Bytes) : Option (Bytes × List Bytes) :=
  match text with
  | 0x23 :: 0x21 :: rest =>
    let line := Bytes.trim Bytes.isBlank (rest.takeWhile (· != ascii '\n'))
    let path := line.takeWhile (!Bytes.isBlank ·)
    let argument := Bytes.trimStart Bytes.isBlank (line.drop path.length)
    if path.isEmpty then none else some (path, if argument.isEmpty then [] else [argument])
  | _ => none

/-- Runs what is found at a path.  A script that names no program is run by the shell. -/
def start (launch : Launcher) (path : Bytes) (node : Node) (args : List Bytes) :
    Job (Except PathFault ExitStatus) := do
  match node with
  | .program name => return .ok (← launch name args)
  | .file number true =>
    match interpreter? ((← get).content number).toList with
    | some (program, first) =>
      match ← Job.find program with
      | .ok (_, .program name) => return .ok (← launch name (first ++ path :: args))
      | .ok _ => return .error .denied
      | .error fault => return .error fault
    | none => return .ok (← launch (bytes "sh") (path :: args))
  | _ => return .error .denied

/-- Runs a command line; its program is searched for. -/
def startCommand (launch : Launcher) (name : Bytes) (args : List Bytes) :
    Job (Except PathFault ExitStatus) := do
  let p ← read
  if name.isEmpty then return .error .missing
  match (← get).program p.directory (p.environment.lookup (bytes "PATH")) name with
  | .error fault => return .error fault
  | .ok (path, node) => start launch path node args

end MacroConstants
