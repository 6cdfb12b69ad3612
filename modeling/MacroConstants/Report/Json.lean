import MacroConstants.Bytes.Numeral

/-!
# JSON text

Arrays of flat objects, one element or member to a line, two spaces to a level.

* `Json.quote` — a string with the escapes it needs.
* `Json.Leaf`, `Json.Object` — what is written.
* `Json.document` — an array of objects.
-/

namespace MacroConstants.Json

/-- A byte inside a string: quotes, backslashes and control bytes are escaped. -/
def escape (b : UInt8) : Bytes :=
  if b = ascii '"' ∨ b = ascii '\\' then [ascii '\\', b]
  else if b = ascii '\t' then bytes "\\t"
  else if b = ascii '\n' then bytes "\\n"
  else if b = ascii '\r' then bytes "\\r"
  else if b < 0x20 then
    bytes "\\u00" ++ (if b < 0x10 then bytes "0" else []) ++ Numeral.hexadecimal b.toNat
  else [b]

/-- A string with its quotes. -/
def quote (s : Bytes) : Bytes := ascii '"' :: s.flatMap escape ++ [ascii '"']

/-- A value without parts. -/
inductive Leaf where
  | null
  | string (text : Bytes)
  /-- A number, by its text. -/
  | number (text : Bytes)
  deriving DecidableEq, Repr

/-- The text of a value without parts. -/
def Leaf.render : Leaf → Bytes
  | null => bytes "null"
  | string text => quote text
  | number text => text

/-- An object without nesting: its members in order. -/
abbrev Object := List (Bytes × Leaf)

/-- A member on its line. -/
def member (m : Bytes × Leaf) : Bytes := bytes "    " ++ quote m.1 ++ bytes ": " ++ m.2.render

/-- Lines that are separated by commas. -/
def separated (lines : List Bytes) : Bytes := (bytes ",\n").intercalate lines

/-- An object inside an array. -/
def object (o : Object) : Bytes := bytes "  \x7b\n" ++ separated (o.map member) ++ bytes "\n  \x7d"

/-- An array of objects. -/
def array (os : List Object) : Bytes :=
  if os.isEmpty then bytes "[]" else bytes "[\n" ++ separated (os.map object) ++ bytes "\n]"

/-- An array of objects with a final newline. -/
def document (os : List Object) : Bytes := array os ++ bytes "\n"

end MacroConstants.Json
