import MacroConstants.Machine.FileSystem
import MacroConstants.Shell.Wildcard

/-!
# Names of files by wildcards

* `Shell.glob` — the paths that a marked text stands for, in order.
-/

namespace MacroConstants.Shell

/-- A path as marked bytes, between slashes. -/
abbrev Steps := List (List (Bool × UInt8))

/-- The text of a step. -/
def stepText (cells : List (Bool × UInt8)) : Bytes :=
  (Wildcard.ofCells (cells.length + 1) cells).filterMap fun
    | .byte b => some b
    | _ => none

/-- The names in a directory that a pattern covers.  A name that starts with a point has to be asked
for by a point. -/
def namesCovered (f : FileSystem) (place : Path) (pattern : List Wildcard) : List Bytes :=
  let asked := pattern.head? == some (.byte (ascii '.'))
  let all := f.names place ++ (if asked then [bytes ".", bytes ".."] else [])
  all.filter fun name =>
    (asked || name.head? != some (ascii '.')) && Wildcard.covers pattern name

/-- The paths below `start` that the steps lead to. -/
def globFrom (f : FileSystem) (directory : Path) : Steps → Bytes → List Bytes
  | [], start => if (f.find directory start).isOk then [start] else []
  | cells :: rest, start =>
    let pattern := Wildcard.ofCells (cells.length + 1) cells
    let slash := if rest.isEmpty then [] else bytes "/"
    if pattern.any Wildcard.isSpecial then
      match f.find directory (if start.isEmpty then bytes "." else start) with
      | .ok (place, .directory) =>
        (namesCovered f place pattern).flatMap fun name =>
          globFrom f directory rest (start ++ name ++ slash)
      | _ => []
    else globFrom f directory rest (start ++ stepText cells ++ slash)

/-- The paths that a marked text stands for, in order; none if it has no wildcards or they cover
nothing. -/
def glob (f : FileSystem) (directory : Path) (m : Marked) : List Bytes :=
  let isSpecial (c : Bool × UInt8) : Bool := !c.1 && (bytes "*?[").contains c.2
  let cells := m.cells
  if cells.any isSpecial ∧ (Wildcard.ofText m).any Wildcard.isSpecial then
    (globFrom f directory (cells.splitOnP fun c => c.2 == ascii '/') []).mergeSort FileSystem.before
  else []

end MacroConstants.Shell
