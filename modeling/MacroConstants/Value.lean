import MacroConstants.TypeTag
import MacroConstants.Decimal.General

/-!
# Values of constants

A value is what a compiled probe returned, or the decimal text of a floating literal, which is
kept so that no digit is lost.

* `Value` — one constructor per way of making a value.
* `Value.type`, `Value.integer`, `Value.real`, `Value.text`, `Value.address` — its views; a
  view that does not apply is zero or empty.
* `Value.agrees` — equality of type and of all views.
* `Value.render` — the text shown to a reader.
-/

namespace MacroConstants

/-- A resolved constant. -/
inductive Value where
  | int (v : Int64)
  | long (v : Int64)
  | float (x : Binary64)
  | double (x : Binary64)
  | string (text : Bytes)
  | pointer (address : UInt64)
  /-- The decimal text of a literal of the given type. -/
  | decimal (type : TypeTag) (text : Bytes)
  | other
  deriving DecidableEq, Repr, Inhabited

namespace Value

/-- The type of the value. -/
def type : Value → TypeTag
  | int _ => .int
  | long _ => .long
  | float _ => .float
  | double _ => .double
  | string _ => .string
  | pointer _ => .pointer
  | decimal t _ => t
  | other => .other

/-- The integer of an integer value. -/
def integer : Value → Int64
  | int v | long v => v
  | _ => 0

/-- The number of a computed floating value. -/
def real : Value → Binary64
  | float x | double x => x
  | _ => .zero

/-- The text of a string value, or the decimal text. -/
def text : Value → Bytes
  | string t | decimal _ t => t
  | _ => []

/-- The address of a pointer value. -/
def address : Value → UInt64
  | pointer a => a
  | _ => 0

/-- Whether the value is a floating literal kept as decimal text. -/
def hasDecimalText (v : Value) : Bool := v.type.isReal && !v.text.isEmpty

/-- Equality of type and views; floating numbers are compared as numbers. -/
def agrees (v w : Value) : Bool :=
  v.type == w.type && v.integer == w.integer && v.real.agrees w.real &&
    v.text == w.text && v.address == w.address

/-- An address as text. -/
def addressText (a : UInt64) : Bytes := bytes "0x" ++ Numeral.hexadecimal a.toNat

/-- The value as text: integers in decimal, floating literals as written, computed floating
numbers with nine or seventeen significant digits, strings bare, addresses in hexadecimal. -/
def render (v : Value) : Bytes :=
  match v.type with
  | .int | .long => Numeral.signed v.integer.toInt
  | .float => if v.text.isEmpty then Decimal.general 9 v.real else v.text
  | .double => if v.text.isEmpty then Decimal.general 17 v.real else v.text
  | .string => v.text
  | .pointer => addressText v.address
  | .other => []

end Value

end MacroConstants
