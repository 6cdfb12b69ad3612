import MacroConstants.Binary
import MacroConstants.Bytes

/-!
# The host

What a discovery finds outside itself: a directory for temporary files, commands that can be run,
and a loader for what they build.

* `SharedObject`, `Content` — what a file can hold.
* `TemporaryFiles` — the temporary directory.
* `Invocation`, `CommandResult`, `Response` — a command that is run and what comes of it.
* `Host` — everything the host decides, over a state of its own.
-/

namespace MacroConstants

/-- What the function of a value probe returns, read at each type. -/
structure Reading where
  int : Int32 := 0
  long : Int64 := 0
  float : Binary32 := ⟨0⟩
  double : Binary64 := .zero
  /-- A NUL-terminated string, or a null pointer. -/
  string : Option Bytes := none
  pointer : UInt64 := 0
  deriving DecidableEq, Repr

/-- A module that can be loaded, with the functions it exports and their names. -/
structure SharedObject where
  typeName : Bytes := bytes "compute_expression_type"
  /-- The function of a type probe: the tag it returns, or a null pointer. -/
  typeFunction : Option (Option Bytes) := none
  valueName : Bytes := bytes "compute_expression_value"
  /-- The function of a value probe. -/
  valueFunction : Option Reading := none
  deriving DecidableEq, Repr

namespace SharedObject

/-- The function of a type probe, if it is exported under the name. -/
def typeFunctionAt (symbol : Bytes) (object : SharedObject) : Option (Option Bytes) :=
  if object.typeName = symbol then object.typeFunction else none

/-- The function of a value probe, if it is exported under the name. -/
def valueFunctionAt (symbol : Bytes) (object : SharedObject) : Option Reading :=
  if object.valueName = symbol then object.valueFunction else none

end SharedObject

/-- What a file holds. -/
inductive Content where
  | text (bytes : Bytes)
  | shared (object : SharedObject)
  deriving DecidableEq, Repr

/-- The bytes of a file, as far as it is text. -/
def Content.bytes : Content → Bytes
  | text b => b
  | shared _ => []

/-- An entry of the temporary directory. -/
inductive Entry where
  | file (content : Content)
  /-- A directory and its files by path; it may be open to its owner only. -/
  | directory (ownerOnly : Bool) (files : List (Bytes × Content))
  deriving DecidableEq, Repr

/-- The entries of the temporary directory by path. -/
abbrev TemporaryFiles := List (Bytes × Entry)

namespace TemporaryFiles

/-- The files of an entry. -/
def filesOf : Bytes × Entry → List (Bytes × Content)
  | (path, .file content) => [(path, content)]
  | (_, .directory _ files) => files

/-- All files by path. -/
def files (t : TemporaryFiles) : List (Bytes × Content) := t.flatMap filesOf

/-- What the file of a path holds. -/
def read? (t : TemporaryFiles) (path : Bytes) : Option Content := t.files.lookup path

/-- Whether the file of a path is in a directory, and then whether that is open to its owner
only. -/
def isPrivate? (t : TemporaryFiles) (path : Bytes) : Option Bool :=
  t.findSome? fun
    | (_, .directory ownerOnly files) => if (files.lookup path).isSome then some ownerOnly else none
    | _ => none

/-- Gives an entry to a path that has none. -/
def create (t : TemporaryFiles) (path : Bytes) (e : Entry) : TemporaryFiles := t ++ [(path, e)]

/-- Removes the entry of a path, with everything in it. -/
def remove (t : TemporaryFiles) (path : Bytes) : TemporaryFiles := t.filter (·.1 != path)

/-- Changes the entry of a path. -/
def modify (t : TemporaryFiles) (path : Bytes) (f : Entry → Entry) : TemporaryFiles :=
  t.map fun (p, e) => (p, if p = path then f e else e)

end TemporaryFiles

/-- Gives a file its content, in place of what it held. -/
def Entry.put (path : Bytes) (content : Content) : Entry → Entry
  | file _ => .file content
  | directory ownerOnly files =>
    .directory ownerOnly (files.filter (·.1 != path) ++ [(path, content)])

/-- Makes a directory open to its owner only. -/
def Entry.restrict : Entry → Entry
  | file content => .file content
  | directory _ files => .directory true files

/-- The outcome of a command. -/
structure CommandResult where
  /-- The exit status, or the number of the signal. -/
  status : Int := 0
  signaled : Bool := false
  out : Bytes := []
  err : Bytes := []
  deriving DecidableEq, Repr

/-- Whether the command succeeded: it was not killed and exited with zero. -/
def CommandResult.ok (r : CommandResult) : Bool := !r.signaled && r.status == 0

/-- A command that is run, with the source file it works on and the temporary files it finds. -/
structure Invocation where
  argv : List Bytes
  source : Bytes
  files : TemporaryFiles
  deriving DecidableEq, Repr

namespace Invocation

/-- What the source file holds when the command runs. -/
def sourceText (i : Invocation) : Bytes := ((i.files.read? i.source).map Content.bytes).getD []

/-- Whether the source file is in a directory, and then whether that is open to its owner only. -/
def isPrivate? (i : Invocation) : Option Bool := i.files.isPrivate? i.source

end Invocation

/-- What comes of a command: its result, what its runner shows, and the files it leaves in the
directory of its source. -/
structure Response where
  result : CommandResult
  shown : Bytes := []
  leaves : List (Bytes × Content) := []
  deriving DecidableEq, Repr

/-- Everything the host decides; `τ` is its state. -/
structure Host (τ : Type) where
  /-- The path of the temporary directory, without a slash at its end. -/
  temporary : Bytes
  /-- The number of the running process. -/
  process : Nat
  /-- A name that is not taken, or why no entry can be made. -/
  unique : τ → Except Bytes Bytes × τ
  /-- Why a directory cannot be closed to others, if it cannot. -/
  restrict : τ → Option Bytes × τ
  /-- Why a text cannot be written to a file, if it cannot. -/
  write : Bytes → τ → Option Bytes × τ
  invoke : Invocation → τ → Response × τ
  /-- The loader's words about its last failure, if it has any. -/
  loaderError : τ → Option Bytes × τ

end MacroConstants
