import MacroConstants.Words

/-!
# The environment of a run

* `Environment` — the variables a run looks at and the directories searched for programs.
* `inDirectory` — the path of a name in a directory.
* `Environment.findProgram?` — the first directory that holds the program.
* `Environment.compiler` — the words of the compiler to use when none is configured.
-/

namespace MacroConstants

/-- What a name in a directory stands for. -/
inductive FileKind where
  /-- A regular file that may be executed. -/
  | executable
  /-- A regular file that may not. -/
  | plain
  | directory
  deriving DecidableEq, Repr

/-- The path of a name in a directory: a slash goes between the two, unless the directory ends with
one or is empty. -/
def inDirectory (directory name : Bytes) : Bytes :=
  if directory.getLast?.all (· == ascii '/') then directory ++ name
  else directory ++ bytes "/" ++ name

/-- A directory on the search path. -/
structure SearchDirectory where
  path : Bytes
  entries : List (Bytes × FileKind)
  deriving DecidableEq, Repr

/-- Whether the directory holds an executable regular file of that name. -/
def SearchDirectory.holds (d : SearchDirectory) (program : Bytes) : Bool :=
  d.entries.any fun (name, kind) => name == program && kind == .executable

/-- The variables a run looks at; `none` stands for an unset one. -/
structure Environment where
  cc : Option Bytes := none
  cflags : Option Bytes := none
  /-- The search path, in order. -/
  path : List SearchDirectory := []
  deriving Repr

namespace Environment

/-- The path of a program: in the first directory that holds it. -/
def findProgram? (env : Environment) (program : Bytes) : Option Bytes :=
  (env.path.find? (·.holds program)).map fun d => inDirectory d.path program

/-- The programs tried when `CC` does not name a compiler, in order. -/
def candidates : List Bytes := [bytes "cc", bytes "gcc", bytes "clang"]

/-- The words of `CC` when it is set and not empty, else the first candidate that is found on the
search path, else nothing. -/
def compiler (env : Environment) : List Bytes :=
  match env.cc with
  | some (b :: text) => splitWords (b :: text)
  | _ => (candidates.findSome? env.findProgram?).toList

/-- The words of `CFLAGS`. -/
def compilerFlags (env : Environment) : List Bytes := (env.cflags.map splitWords).getD []

end Environment

end MacroConstants
