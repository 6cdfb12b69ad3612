import MacroConstants.CommandLine.Run
import MacroConstants.Machine

/-!
# The program

Looks at the environment and the working directory, does a run, and writes what it shows.
Commands are run by the built-in shell.
-/

open MacroConstants

/-- The variables that commands can look at. -/
def variableNames : List String := ["PATH", "CC", "CFLAGS", "TMPDIR", "HOME", "LANG", "LC_ALL"]

/-- The variables of the environment. -/
def readVariables : IO (List (Bytes × Bytes)) :=
  variableNames.filterMapM fun name => do
    return (← IO.getEnv name).map fun value => (bytes name, bytes value)

/-- The bytes of a file, if it can be read. -/
def readFile? (path : String) : IO (Option Bytes) := do
  try return some (← IO.FS.readBinFile path).toList
  catch _ => return none

/-- The place of a path from the root. -/
def placeOf (path : String) : Path := ((bytes path).splitOn (ascii '/')).filter (!·.isEmpty)

/-- Adds the files of a directory, and those of the directories in it. -/
def addDirectory (path : String) (below : Nat) (files : FileSystem) : IO FileSystem := do
  let files := if placeOf path = [] then files else files.put (placeOf path) .directory
  let place := (← IO.currentDir) / path
  let names ← try pure ((← place.readDir).toList.map (·.fileName)) catch _ => pure []
  names.foldlM (fun files name => do
    let inner := path ++ "/" ++ name
    match ← readFile? inner with
    | some text => return files.install (placeOf inner) text false
    | none =>
      match below with
      | 0 => return files
      | n + 1 => addDirectory inner n files) files

/-- The working directory, as text. -/
def currentDirectory : IO String := return (← IO.currentDir).toString

/-- A path without a slash at its end. -/
def withoutSlash (path : Bytes) : Bytes :=
  if path.getLast? = some (ascii '/') then path.dropLast else path

/-- The machine that commands are run on. -/
def readMachine : IO Machine := do
  let environment ← readVariables
  return {
    directory := placeOf (← currentDirectory)
    environment
    temporary := withoutSlash ((environment.lookup (bytes "TMPDIR")).getD (bytes "/tmp")) }

/-- The files of the working directory and of further paths. -/
def readFiles (further : List String) : IO FileSystem := do
  let here ← currentDirectory
  let files ← addDirectory here 2 { programs := installedPrograms }
  further.foldlM (fun files path => do
    match ← readFile? path with
    | some text => return files.install (placeOf path) text false
    | none => return files) files

/-- The absolute path of a settings file, as text. -/
def settingsPath (args : List Bytes) : List String :=
  match Options.ofArguments args with
  | .ok o =>
    ((o.settingsFile.bind fun path => String.fromUTF8? (ByteArray.mk path.toArray)).filter
      fun path => path.startsWith "/").toList
  | .error _ => []

/-- Writes bytes to a stream. -/
def writeBytes (stream : IO.FS.Stream) (text : Bytes) : IO Unit := do
  stream.write (ByteArray.mk text.toArray)
  stream.flush

/-- Does a run with the arguments of the program. -/
def main (args : List String) : IO UInt32 := do
  let args := args.map bytes
  let machine ← readMachine
  let files ← readFiles (settingsPath args)
  let files ← addDirectory ((← IO.getEnv "TMPDIR").getD "/tmp") 0 files
  let read (path : Bytes) : Option Bytes := (files.readPath machine.directory path).toOption
  let outcome :=
    CommandLine.run args (machine.lookedAt files) read machine.host { host := { files } }
  writeBytes (← IO.getStdout) outcome.out
  writeBytes (← IO.getStderr) outcome.world.console
  return outcome.status
