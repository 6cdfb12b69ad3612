import MacroConstants.Finding
import MacroConstants.Host

/-!
# The state of a run

* `RunState` — temporary files, commands run, findings, what was shown, and the host's own state.
* `RunState.report` — a finding.
* `RunState.createFile`, `RunState.createDirectory`, `RunState.write`, `RunState.remove` — temporary
  files.
* `RunState.invoke` — a command.
-/

namespace MacroConstants

/-- The state of a run. -/
structure RunState (τ : Type) where
  files : TemporaryFiles := []
  /-- How many probes have been given names. -/
  probes : UInt64 := 0
  /-- The commands run, in order. -/
  invocations : List Invocation := []
  diagnostics : Findings := {}
  /-- What was shown to the user, apart from results. -/
  console : Bytes := []
  host : τ

namespace RunState

variable {τ : Type}

/-- Shows a text. -/
def say (text : Bytes) (s : RunState τ) : RunState τ := { s with console := s.console ++ text }

/-- Records a finding and shows it unless findings are kept quiet. -/
def report (s : RunState τ) (d : Finding) : RunState τ :=
  { s with
    diagnostics := s.diagnostics.record d
    console := s.console ++ s.diagnostics.echo d }

/-- Records findings in order. -/
def reportAll (ds : List Finding) (s : RunState τ) : RunState τ := ds.foldl report s

/-- A step of the host. -/
def step {α : Type} (act : τ → α × τ) (s : RunState τ) : α × RunState τ :=
  let (a, host) := act s.host
  (a, { s with host })

/-- Whether a path has an entry in the temporary directory. -/
def taken (s : RunState τ) (path : Bytes) : Bool := s.files.any (·.1 == path)

/-- The path of a temporary entry with a unique name. -/
def uniquePath (h : Host τ) (stem unique ending : Bytes) : Bytes :=
  h.temporary ++ bytes "/" ++ stem ++ bytes "-" ++ unique ++ ending

/-- Makes an entry with a name of its own; its path, or why it could not be made.  An entry that
exists is never replaced. -/
def create (h : Host τ) (stem ending : Bytes) (e : Entry) (s : RunState τ) :
    Except Bytes Bytes × RunState τ :=
  match s.step h.unique with
  | (.error reason, s) => (.error reason, s)
  | (.ok unique, s) =>
    let path := uniquePath h stem unique ending
    if s.taken path then (.error (bytes "File exists"), s)
    else (.ok path, { s with files := s.files.create path e })

/-- Makes an empty temporary file. -/
def createFile (h : Host τ) (stem suffix : Bytes) (s : RunState τ) :
    Except Bytes Bytes × RunState τ :=
  s.create h stem (bytes "." ++ suffix) (.file (.text []))

/-- Makes an empty directory among the temporary files. -/
def createDirectory (h : Host τ) (stem : Bytes) (s : RunState τ) :
    Except Bytes Bytes × RunState τ :=
  s.create h stem [] (.directory false [])

/-- Closes a directory to others; the reason if that fails. -/
def restrict (h : Host τ) (path : Bytes) (s : RunState τ) : Option Bytes × RunState τ :=
  match s.step h.restrict with
  | (some reason, s) => (some reason, s)
  | (none, s) => (none, { s with files := s.files.modify path Entry.restrict })

/-- Gives the file `path` of the entry `entry` a text; the reason if that fails. -/
def write (h : Host τ) (entry path text : Bytes) (s : RunState τ) : Option Bytes × RunState τ :=
  match s.step (h.write text) with
  | (some reason, s) => (some reason, s)
  | (none, s) => (none, { s with files := s.files.modify entry (Entry.put path (.text text)) })

/-- Removes a temporary entry. -/
def remove (path : Bytes) (s : RunState τ) : RunState τ := { s with files := s.files.remove path }

/-- Runs a command on a source file and shows what its runner shows. -/
def invoke (h : Host τ) (argv : List Bytes) (source : Bytes) (s : RunState τ) :
    Response × RunState τ :=
  let i : Invocation := ⟨argv, source, s.files⟩
  let (response, s) := s.step (h.invoke i)
  (response, say response.shown { s with invocations := s.invocations ++ [i] })

end RunState

end MacroConstants
