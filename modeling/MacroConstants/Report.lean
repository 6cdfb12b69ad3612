import MacroConstants.Report.Record
import MacroConstants.Report.Row

/-!
# Reports

* `Report.Format` — text or JSON.
* `Catalog.rows`, `Catalog.records` — what is shown of each constant.
* `Catalog.report` — the printed catalog, and the catalog with what printing settled.
-/

namespace MacroConstants

/-- How a catalog is printed. -/
inductive Report.Format where
  | text
  | json
  deriving DecidableEq, Repr, Inhabited

/-- The format of a given name. -/
def Report.Format.ofName? (name : Bytes) : Option Report.Format :=
  if name = bytes "text" then some .text else if name = bytes "json" then some .json else none

namespace Catalog

variable {σ : Type} (r : Resolver σ) (resolve : Bool)

/-- The rows of all constants, in order. -/
def rows (k : Catalog) (s : σ) : List Report.Row × Catalog × σ :=
  k.visit (Constant.rowLook r resolve) s

/-- The records of all constants, in order. -/
def records (k : Catalog) (s : σ) : List Report.Record × Catalog × σ :=
  k.visit (Constant.recordLook r resolve) s

/-- The printed catalog: a line for each constant, or a JSON array with an object for each.  With
`resolve` every type and value is asked for. -/
def report (format : Report.Format) (k : Catalog) (s : σ) : Bytes × Catalog × σ :=
  match format with
  | .text =>
    let (rows, k, s) := k.rows r resolve s
    (rows.flatMap Report.Row.render, k, s)
  | .json =>
    let (records, k, s) := k.records r resolve s
    (Json.document (records.map Report.Record.members), k, s)

end Catalog

end MacroConstants
