import MacroConstants.Bytes

/-!
# Languages

* `Language` — the two languages headers can be written in.
* `Language.name`, `Language.ofName?` — a language and its name.
* `Language.suffix` — the suffix of its source files.
-/

namespace MacroConstants

/-- The language of the headers. -/
inductive Language where
  | c
  | cxx
  deriving DecidableEq, Repr, Inhabited

namespace Language

/-- The name of a language, as options and compilers spell it. -/
def name : Language → Bytes
  | c => bytes "c"
  | cxx => bytes "c++"

/-- The language with a given name. -/
def ofName? (text : Bytes) : Option Language :=
  if text = name c then some c else if text = name cxx then some cxx else none

/-- The suffix of a source file, without the point. -/
def suffix : Language → Bytes
  | c => bytes "c"
  | cxx => bytes "cxx"

end Language

end MacroConstants
