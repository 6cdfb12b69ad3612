import MacroConstants.Catalog

/-!
# Constants as lines of text

* `Report.Row` — what a line shows of a constant.
* `Report.Row.render` — the line: three columns with tabs between them.
* `Constant.row` — the row of a constant, which may settle the constant.
-/

namespace MacroConstants

/-- What a line shows of a constant: with a type the value, without one the text it was written
with. -/
structure Report.Row where
  name : Bytes
  type : Option TypeTag
  text : Bytes
  deriving DecidableEq, Repr

/-- The second column: a question mark where the type is not known. -/
def Report.Row.typeText (r : Report.Row) : Bytes := (r.type.map TypeTag.name).getD (bytes "?")

/-- The line of a row. -/
def Report.Row.render (r : Report.Row) : Bytes :=
  r.name ++ bytes "\t" ++ r.typeText ++ bytes "\t" ++ r.text ++ bytes "\n"

namespace Constant

variable {σ : Type} (r : Resolver σ) (resolve : Bool)

/-- The row of a constant.  With `resolve`, and wherever the type is known, the value is asked
for. -/
def row (c : Constant) (s : σ) : Report.Row × Constant × σ :=
  if resolve || c.typeKnown then
    let (t, c, s) := c.type r s
    let (v, c, s) := c.value r s
    (⟨c.name, some t, (v.map Value.render).getD []⟩, c, s)
  else (⟨c.name, none, c.raw.getD []⟩, c, s)

/-- Looking at a constant's row. -/
def rowLook : Catalog.Look σ Report.Row where
  run := row r resolve
  keeps c s := by
    unfold row
    split <;> simp

end Constant

end MacroConstants
