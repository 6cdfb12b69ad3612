import MacroConstants.TypeTag
import MacroConstants.Language

/-!
# Source files for the compiler

* `includeLines` — the source file whose macros are listed: one include line per header.
* `Probe.Source` — the headers and language that probes are written for.
* `Probe.Source.forType` — a unit with a function that names the type of an expression.
* `Probe.Source.forValue?` — a unit with a function that returns an expression.
-/

namespace MacroConstants

/-- One include line per header, in order. -/
def includeLines (headers : List Bytes) : Bytes :=
  headers.flatMap fun h => bytes "#include <" ++ h ++ bytes ">\n"

/-- What probes are written for. -/
structure Probe.Source where
  headers : List Bytes
  language : Language
  deriving DecidableEq, Repr

namespace Probe.Source

/-- The function a type probe exports. -/
def typeSymbol : Bytes := bytes "compute_expression_type"

/-- The function a value probe exports. -/
def valueSymbol : Bytes := bytes "compute_expression_value"

/-- What an exported function needs before its type. -/
def linkage : Language → Bytes
  | .c => []
  | .cxx => bytes "extern \"C\" "

/-- A function without parameters whose body is one statement. -/
def function (language : Language) (type symbol statement : Bytes) : Bytes :=
  linkage language ++ type ++ bytes "\n" ++ symbol ++ bytes "(void)\n\x7b\n" ++ statement ++
    bytes "\x7d\n"

/-- The types a C++ probe knows, with their tags. -/
def traits : List (Bytes × TypeTag) :=
  [(bytes "float", .float), (bytes "double", .double), (bytes "char *", .string),
   (bytes "const char *", .string), (bytes "void *", .pointer), (bytes "int", .int),
   (bytes "long", .long)]

/-- The specialisation of the trait that gives a type its tag. -/
def trait (t : Bytes × TypeTag) : Bytes :=
  bytes "template <> struct cmacros_type_tag<" ++ t.1 ++
    bytes "> \x7b static const char *name() \x7b return \"" ++ t.2.name ++ bytes "\"; \x7d \x7d;\n"

/-- The statement of a C type probe: a selection by type, without a default. -/
def selection (expression : Bytes) : Bytes :=
  bytes "  return _Generic(\n    (" ++ expression ++ bytes "),\n" ++
    bytes "    float    : \"float\",\n    double   : \"double\",\n    char *   : \"string\",\n" ++
    bytes "    void *   : \"pointer\",\n    int      : \"int\",\n    long     : \"long\"\n  );\n"

/-- The statement of a C++ type probe. -/
def traitLookup (expression : Bytes) : Bytes :=
  bytes "  return cmacros_type_tag<std::decay<decltype((" ++ expression ++
    bytes "))>::type>::name();\n"

/-- A unit whose function names the type of an expression; a type that is not listed does not
compile. -/
def forType (p : Probe.Source) (expression : Bytes) : Bytes :=
  includeLines p.headers ++
    match p.language with
    | .c => function .c (bytes "const char *") typeSymbol (selection expression)
    | .cxx =>
      bytes "#include <type_traits>\ntemplate <typename T> struct cmacros_type_tag \x7b\x7d;\n" ++
        traits.flatMap trait ++
        function .cxx (bytes "const char *") typeSymbol (traitLookup expression)

/-- A unit whose function returns an expression at a type; there is none for `other`. -/
def forValue? (p : Probe.Source) (type : TypeTag) (expression : Bytes) : Option Bytes :=
  type.returnType?.map fun returnType =>
    includeLines p.headers ++
      function p.language returnType valueSymbol
        (bytes "  return (" ++ expression ++ bytes ");\n")

end Probe.Source

end MacroConstants
