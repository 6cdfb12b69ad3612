import MacroConstants.Catalog
import MacroConstants.Report.Json

/-!
# Constants as JSON objects

* `Value.leaf` — a value in JSON; the text of a literal is copied, less leading zeros.
* `Report.Record`, `Report.Record.members` — what an object shows of a constant.
* `Constant.record` — the record of a constant, which may settle the constant.
-/

namespace MacroConstants

/-- Decimal text without the leading zeros that JSON does not allow; a zero before the point
stays. -/
def decimalToken : Bytes → Bytes
  | d :: e :: rest =>
    if d = ascii '0' ∧ e ≠ ascii '.' then decimalToken (e :: rest) else d :: e :: rest
  | text => text

/-- A value in JSON.  A string is quoted byte by byte, which makes a string of JSON if it is
UTF-8. -/
def Value.leaf (v : Value) : Json.Leaf :=
  match v.type with
  | .int | .long => .number (Numeral.signed v.integer.toInt)
  | .float | .double =>
    .number (if v.hasDecimalText then decimalToken v.text else Decimal.general 17 v.real)
  | .string | .pointer => .string v.render
  | .other => .null

/-- What an object shows of a constant: a missing type or value is null. -/
structure Report.Record where
  name : Bytes
  raw : Option Bytes
  type : Option TypeTag
  value : Option Value
  deriving DecidableEq, Repr

/-- The members of a record, in order. -/
def Report.Record.members (r : Report.Record) : Json.Object :=
  [(bytes "name", .string r.name),
   (bytes "raw_value", (r.raw.map Json.Leaf.string).getD .null),
   (bytes "type", (r.type.map fun t => Json.Leaf.string t.name).getD .null),
   (bytes "value", (r.value.map Value.leaf).getD .null)]

namespace Constant

variable {σ : Type} (r : Resolver σ) (resolve : Bool)

/-- The type for a record: unless everything is resolved, only if it is known. -/
def shownType (c : Constant) (s : σ) : Option TypeTag × Constant × σ :=
  if resolve || c.typeKnown then
    let (t, c, s) := c.type r s
    (some t, c, s)
  else (none, c, s)

/-- The value for a record: unless everything is resolved, only if it is known. -/
def shownValue (c : Constant) (s : σ) : Option Value × Constant × σ :=
  if resolve || c.valueKnown then c.value r s else (none, c, s)

@[simp]
theorem name_shownType (c : Constant) (s : σ) : (c.shownType r resolve s).2.1.name = c.name := by
  unfold shownType
  split <;> simp

@[simp]
theorem name_shownValue (c : Constant) (s : σ) :
    (c.shownValue r resolve s).2.1.name = c.name := by
  unfold shownValue
  split <;> simp

/-- The record of a constant. -/
def record (c : Constant) (s : σ) : Report.Record × Constant × σ :=
  let (type, c, s) := c.shownType r resolve s
  let (value, c, s) := c.shownValue r resolve s
  (⟨c.name, c.raw, type, value⟩, c, s)

/-- Looking at a constant's record. -/
def recordLook : Catalog.Look σ Report.Record where
  run := record r resolve
  keeps c s := by simp [record]

end Constant

end MacroConstants
