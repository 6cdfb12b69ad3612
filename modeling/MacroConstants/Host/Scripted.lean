import MacroConstants.Bytes.Numeral
import MacroConstants.Host

/-!
# A host that follows a script

The outcomes of commands are given in advance, in the order in which commands are run, so that a
discovery can be rehearsed without a compiler.

* `ScriptedResult` — the outcome of a command and what it leaves at its output path.
* `Script` — the outcomes still to come, and what is wrong with the temporary directory.
* `Host.scripted` — the host.
-/

namespace MacroConstants

/-- The outcome of a command; a command that builds leaves a file at the path that is its last
argument. -/
structure ScriptedResult where
  result : CommandResult := {}
  built : Option Content := none
  deriving DecidableEq, Repr

/-- What a scripted host does next. -/
structure Script where
  results : List ScriptedResult := []
  /-- Why no temporary entry can be made, if none can. -/
  refusal : Option Bytes := none
  /-- Why not even one byte can be written, if none can. -/
  full : Option Bytes := none
  /-- The number of temporary entries named so far. -/
  named : Nat := 0
  deriving Repr

namespace Script

/-- A name that was not given before. -/
def unique (s : Script) : Except Bytes Bytes × Script :=
  match s.refusal with
  | some reason => (.error reason, s)
  | none => (.ok (Numeral.decimal (s.named + 1)), { s with named := s.named + 1 })

/-- Writing fails on a full disk unless there is nothing to write. -/
def write (text : Bytes) (s : Script) : Option Bytes × Script :=
  (if text.isEmpty then none else s.full, s)

/-- The next outcome; when there is none left, commands fail. -/
def invoke (i : Invocation) (s : Script) : Response × Script :=
  match s.results with
  | [] => ({ result := { status := 1 } }, s)
  | r :: results =>
    let leaves :=
      match i.argv.getLast?, r.built with
      | some path, some content => [(path, content)]
      | _, _ => []
    ({ result := r.result, leaves }, { s with results })

end Script

/-- The host that follows a script; the loader's words are `loaderError`. -/
def Host.scripted (temporary : Bytes) (process : Nat) (loaderError : Option Bytes) :
    Host Script where
  temporary := temporary
  process := process
  unique := Script.unique
  restrict s := (none, s)
  write := Script.write
  invoke := Script.invoke
  loaderError s := (loaderError, s)

end MacroConstants
