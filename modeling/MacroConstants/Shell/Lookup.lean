import MacroConstants.Machine.Program
import MacroConstants.Shell.State

/-!
# What a command name stands for

* `Shell.builtins` — the built-in commands and how they are treated.
* `Shell.Meaning` — what a name stands for.
* `Shell.State.meaning` — a function, a built-in command, or a program on the search path.
-/

namespace MacroConstants.Shell

/-- How a built-in command is treated. -/
structure BuiltinKind where
  /-- Its failure ends the script, and assignments before it stay. -/
  special : Bool := false
  /-- Arguments of the form of assignments are not cut into fields. -/
  assigns : Bool := false
  deriving DecidableEq, Repr

/-- The built-in commands by name. -/
def builtins : List (Bytes × BuiltinKind) :=
  let all (kind : BuiltinKind) (names : List String) : List (Bytes × BuiltinKind) :=
    names.map fun name => (bytes name, kind)
  all { special := true }
    [".", ":", "break", "continue", "eval", "exec", "exit", "return", "set", "shift", "times",
     "trap", "unset"] ++
  all { special := true, assigns := true } ["export", "readonly", "local"] ++
  all { assigns := true } ["alias"] ++
  all {}
    ["test", "[", "bg", "cd", "chdir", "command", "echo", "false", "fg", "getopts", "hash", "jobs",
     "kill", "printf", "pwd", "read", "true", "type", "ulimit", "umask", "unalias", "wait"]

/-- What a name stands for. -/
inductive Meaning where
  | function (f : Function)
  | builtin (kind : BuiltinKind)
  /-- What is found at a path. -/
  | program (path : Bytes) (node : Node)
  /-- Nothing that can be run. -/
  | unknown (fault : PathFault)

/-- The program that a name stands for. -/
def State.program? (s : State) (name : Bytes) : Except PathFault (Bytes × Node) :=
  s.files.program s.directory (s.value? (bytes "PATH")) name

/-- What a name stands for. -/
def State.meaning (s : State) (withFunctions : Bool) (name : Bytes) : Meaning :=
  match if withFunctions then s.functions.lookup name else none with
  | some f => .function f
  | none =>
    match builtins.lookup name with
    | some kind => .builtin kind
    | none =>
      match s.program? name with
      | .ok (path, node) => .program path node
      | .error fault => .unknown fault

end MacroConstants.Shell
