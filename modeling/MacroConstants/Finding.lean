import MacroConstants.Bytes.Numeral

/-!
# Findings

Findings that do not end a run.

* `Finding` — a level, a place and a message.
* `Finding.echo` — the line shown for it.
* `Findings` — the findings of a run in order, and whether they are shown.
-/

namespace MacroConstants

/-- How much a finding matters. -/
inductive Level where
  | note
  | warning
  deriving DecidableEq, Repr

/-- The word shown for a level. -/
def Level.name : Level → Bytes
  | .note => bytes "note"
  | .warning => bytes "warning"

/-- A finding.  Without a file it concerns the run as a whole; line zero is no particular line. -/
structure Finding where
  level : Level
  file : Option Bytes := none
  line : UInt32 := 0
  message : Bytes
  deriving DecidableEq, Repr

namespace Finding

/-- A finding in a named file; a NUL ends the name. -/
def located (level : Level) (file : Option Bytes) (line : UInt32) (message : Bytes) : Finding :=
  { level, file := file.map Bytes.beforeNul, line, message }

/-- Where the finding is. -/
def place (d : Finding) : Bytes :=
  match d.file with
  | none => bytes "cmacros"
  | some file => if d.line = 0 then file else file ++ bytes ":" ++ Numeral.decimal d.line.toNat

/-- The line shown for a finding; a NUL ends the message. -/
def echo (d : Finding) : Bytes :=
  d.place ++ bytes ": " ++ d.level.name ++ bytes ": " ++ d.message.beforeNul ++ bytes "\n"

/-- Whether the finding is a warning. -/
def isWarning (d : Finding) : Bool := d.level == .warning

end Finding

/-- The findings of a run. -/
structure Findings where
  /-- Whether findings are only recorded and not shown. -/
  quiet : Bool := false
  recorded : List Finding := []
  deriving DecidableEq, Repr

namespace Findings

/-- Records a finding after the earlier ones. -/
def record (ds : Findings) (d : Finding) : Findings :=
  { ds with recorded := ds.recorded ++ [d] }

/-- What is shown for a finding. -/
def echo (ds : Findings) (d : Finding) : Bytes := if ds.quiet then [] else d.echo

/-- The number of warnings. -/
def warnings (ds : Findings) : Nat := ds.recorded.countP Finding.isWarning

end Findings

end MacroConstants
