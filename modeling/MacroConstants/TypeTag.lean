import MacroConstants.Bytes

/-!
# Type tags

The closed list of types a macro constant can have.  A tag is spelled in one way in options,
answers and output, and in another where a compiled function returns a value of the type.

* `TypeTag.name`, `TypeTag.ofName?` — a tag and its spelling.
* `TypeTag.ofAnswer` — the tag a compiled probe answered with.
* `TypeTag.returnType?` — how a probe declares a value of the type.
-/

namespace MacroConstants

/-- The type of a macro constant; `other` is everything without a usable scalar value. -/
inductive TypeTag where
  | int
  | long
  | float
  | double
  | string
  | pointer
  | other
  deriving DecidableEq, Repr, Inhabited

namespace TypeTag

/-- All tags, in the order in which their names are tried. -/
def all : List TypeTag := [int, long, float, double, string, pointer, other]

/-- The spelling of a tag. -/
def name : TypeTag → Bytes
  | int => bytes "int"
  | long => bytes "long"
  | float => bytes "float"
  | double => bytes "double"
  | string => bytes "string"
  | pointer => bytes "pointer"
  | other => bytes "other"

/-- The tag with a given spelling. -/
def ofName? (text : Bytes) : Option TypeTag := all.find? (·.name == text)

/-- The tag a probe's answer spells, after trimming; any other answer means `other`. -/
def ofAnswer (text : Bytes) : TypeTag :=
  (ofName? (Bytes.trim Bytes.isSpace text)).getD other

/-- The type a value probe returns in the compiled language; `other` has none. -/
def returnType? : TypeTag → Option Bytes
  | int => some (bytes "int")
  | long => some (bytes "long")
  | float => some (bytes "float")
  | double => some (bytes "double")
  | string => some (bytes "const char *")
  | pointer => some (bytes "void *")
  | other => none

/-- The two types whose constants may keep their decimal text. -/
def isReal (t : TypeTag) : Bool := t == float || t == double

end TypeTag

end MacroConstants
