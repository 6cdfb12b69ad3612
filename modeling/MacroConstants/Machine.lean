import MacroConstants.Environment
import MacroConstants.Host
import MacroConstants.Machine.Engine
import MacroConstants.Program

/-!
# Running commands

A command line is run as a process of its own: its program is looked up, and its output and error
text are captured.  What it does to files stays, outside the temporary directory.  The machine has a
pattern engine of its own.

* `Machine` — where commands are run.
* `Machine.run` — a command line.
* `Machine.host` — the host that runs commands on a machine.
-/

namespace MacroConstants

/-- Where commands are run. -/
structure Machine where
  /-- The working directory. -/
  directory : Path := []
  environment : List (Bytes × Bytes) := []
  /-- The path of the temporary directory. -/
  temporary : Bytes
  /-- The number of the running process. -/
  process : Nat := 1
  /-- The loader's words about what is no module. -/
  loaderError : Option Bytes := none

/-- What changes while commands are run. -/
structure Machine.State where
  files : FileSystem
  /-- How many temporary entries were given names. -/
  named : Nat := 0

namespace Machine

variable (m : Machine)

/-- What kind of thing is found at a path. -/
def kind? (files : FileSystem) (path : Bytes) : Option FileKind :=
  match files.find m.directory path with
  | .ok (_, .file _ executable) => some (if executable then .executable else .plain)
  | .ok (_, .program _) => some .executable
  | .ok (_, .directory) => some .directory
  | _ => none

/-- What a run looks at in its environment: two variables, and the candidate compilers in the
directories of the search path. -/
def lookedAt (files : FileSystem) : Environment :=
  let directory (d : Bytes) : SearchDirectory :=
    ⟨d, Environment.candidates.filterMap fun name =>
      (m.kind? files (inDirectory d name)).map fun kind => (name, kind)⟩
  let path := ((m.environment.lookup (bytes "PATH")).getD []).splitOn (ascii ':')
  { cc := m.environment.lookup (bytes "CC")
    cflags := m.environment.lookup (bytes "CFLAGS")
    path := (path.filter (!·.isEmpty)).map directory }

/-- Why nothing can be put into the temporary directory, if nothing can. -/
def refusal? (files : FileSystem) : Option Bytes :=
  match files.find m.directory (m.temporary ++ bytes "/.") with
  | .ok _ => none
  | .error fault => some fault.message

/-- A name for a temporary entry. -/
def unique (s : State) : Except Bytes Bytes × State :=
  match m.refusal? s.files with
  | some reason => (.error reason, s)
  | none => (.ok (Numeral.decimal (s.named + 1)), { s with named := s.named + 1 })

/-- What is said of a program that cannot be executed. -/
def execFailure (program : Bytes) (fault : PathFault) : Bytes :=
  bytes "cmacros: exec '" ++ program.beforeNul ++ bytes "' failed: " ++ fault.message ++ bytes "\n"

/-- Files together with temporary ones. -/
def withTemporary (files : FileSystem) (entries : TemporaryFiles) : FileSystem :=
  entries.foldl (fun files e =>
    match files.resolve m.directory e.1 with
    | .error _ => files
    | .ok place =>
      match e.2 with
      | .file content => files.create place content.bytes false
      | .directory _ inner =>
        inner.foldl (fun files f =>
          match files.resolve m.directory f.1 with
          | .ok place => files.create place f.2.bytes false
          | .error _ => files) (files.put place .directory)) files

/-- The files in temporary directories, by path. -/
def leftIn (files : FileSystem) (entries : TemporaryFiles) : List (Bytes × Content) :=
  entries.flatMap fun e =>
    match e.2, files.resolve m.directory e.1 with
    | .directory _ _, .ok place =>
      (files.names place).filterMap fun name =>
        match files.node? (place ++ [name]) with
        | some (.file number _) =>
          some (e.1 ++ bytes "/" ++ name, .text (files.content number).toList)
        | _ => none
    | _, _ => []

/-- Files without the temporary ones. -/
def withoutTemporary (files : FileSystem) (entries : TemporaryFiles) : FileSystem :=
  entries.foldl (fun files e =>
    match files.resolve m.directory e.1 with
    | .ok place => files.removeAll place
    | .error _ => files) files

/-- Runs a command line as a process: its result, and the files after it. -/
def execute (files : FileSystem) (argv : List Bytes) : CommandResult × FileSystem :=
  let (out, files) := files.store .empty
  let (err, files) := files.store .empty
  let (input, files) := files.addOpen { channel := .null, reads := true }
  let (first, files) := files.openContent out .write
  let (second, files) := files.openContent err .write
  let p : Process :=
    { directory := m.directory
      descriptors := [(0, input), (1, first), (2, second)]
      environment := m.environment
      number := m.process }
  let program := argv.headD []
  let (ended, files) := ((startCommand launchProgram program argv.tail).run p).run files
  let result (status : Nat) (signaled : Bool) : CommandResult :=
    { status, signaled, out := (files.content out).toList, err := (files.content err).toList }
  match ended with
  | .ok (.status n) => (result n false, files)
  | .ok (.signal n) => (result n true, files)
  | .error fault => ({ status := 127, err := execFailure program fault }, files)

/-- The line that announces a command. -/
def announcement (argv : List Bytes) : Bytes := bytes "[cmacros] " ++ joinWords argv ++ bytes "\n"

/-- Runs a command line, announced if `verbose`.  An empty one is refused, and so is every other
when its output cannot be captured. -/
def run (verbose : Bool) (entries : TemporaryFiles) (argv : List Bytes) (s : State) :
    Response × State :=
  if argv.isEmpty then ({ result := { status := 127, err := bytes "empty command line" } }, s)
  else
    let shown := if verbose then announcement argv else []
    match m.refusal? s.files with
    | some reason =>
      let err := bytes "cannot create temporary file: " ++ reason
      ({ result := { status := 127, err }, shown }, s)
    | none =>
      let (result, files) := m.execute (m.withTemporary s.files entries) (argv.map Bytes.beforeNul)
      ({ result, shown, leaves := m.leftIn files entries },
        { s with files := (m.withoutTemporary files entries).settle })

/-- The host that runs commands on a machine. -/
def host (verbose : Bool) : Host State where
  temporary := m.temporary
  process := m.process
  unique := m.unique
  restrict s := (none, s)
  write _ s := (none, s)
  invoke i s := m.run verbose i.files i.argv s
  loaderError s := (m.loaderError, s)

end Machine

end MacroConstants
