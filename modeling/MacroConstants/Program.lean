import MacroConstants.Shell.Run
import MacroConstants.Utility.Columns
import MacroConstants.Utility.Expr
import MacroConstants.Utility.Files
import MacroConstants.Utility.Grep
import MacroConstants.Utility.Lines
import MacroConstants.Utility.Order
import MacroConstants.Utility.Sed
import MacroConstants.Utility.Surroundings

/-!
# Installed programs

* `utilities` — the programs that run no others.
* `launch` — runs an installed program.
-/

namespace MacroConstants

/-- The programs that run no others, by name. -/
def utilities : List (String × Utility) :=
  [("basename", Utility.basename), ("cat", Utility.cat), ("chmod", Utility.chmod),
   ("cp", Utility.cp), ("cut", Utility.cut), ("dirname", Utility.dirname), ("echo", Utility.echo),
   ("egrep", fun args => Utility.grep (bytes "-E" :: args)), ("expr", Utility.expr),
   ("false", fun _ => return 1), ("fgrep", fun args => Utility.grep (bytes "-F" :: args)),
   ("grep", Utility.grep), ("head", Utility.head), ("ls", Utility.ls), ("mkdir", Utility.mkdir),
   ("mktemp", Utility.mktemp), ("mv", Utility.mv), ("nl", Utility.nl), ("paste", Utility.paste),
   ("printenv", Utility.printenv), ("printf", Utility.printf), ("pwd", Utility.pwd),
   ("rev", Utility.rev), ("rm", Utility.rm), ("rmdir", Utility.rmdir), ("sed", Utility.sed),
   ("seq", Utility.seq), ("sleep", Utility.sleep), ("sort", Utility.sort), ("tac", Utility.tac),
   ("tail", Utility.tail), ("tee", Utility.tee), ("touch", Utility.touch), ("tr", Utility.tr),
   ("true", fun _ => return 0), ("uniq", Utility.uniq), ("wc", Utility.wc)]

/-- The programs that run others, by name. -/
def runners : List String := ["sh", "dash", "env", "xargs"]

/-- Runs an installed program; `n` bounds how deep programs are run by programs. -/
def launch : Nat → Launcher
  | 0, _, _ => return .signal 11
  | n + 1, name, args => do
    if name = bytes "sh" ∨ name = bytes "dash" then Shell.run (launch n) name args
    else if name = bytes "env" then Utility.env (launch n) args
    else if name = bytes "xargs" then return .status (← Utility.xargs (launch n) args)
    else
      match utilities.find? fun entry => bytes entry.1 == name with
      | some (_, utility) => return .status (← utility args)
      | none => return .status 127

/-- Runs an installed program. -/
def launchProgram : Launcher := launch 1000

/-- The names under which programs are installed. -/
def installedPrograms : List Bytes := (runners ++ utilities.map (·.1)).map bytes

end MacroConstants
