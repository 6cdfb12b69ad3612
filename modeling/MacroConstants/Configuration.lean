import MacroConstants.Environment
import MacroConstants.Language
import MacroConstants.Selector

/-!
# Configuration

Everything a discovery needs to know, and the command lines that follow from it.

* `Configuration` — the settings.
* `Configuration.ofEnvironment` — the settings before any file or option.
* `Configuration.check` — whether they can be used; the name filter if so.
* `Configuration.dumpCommand`, `Configuration.probeCommand` — the two command lines.
-/

namespace MacroConstants

/-- The settings of a discovery. -/
structure Configuration where
  /-- The headers, in the order in which they are included. -/
  headers : List Bytes := []
  language : Language := .c
  /-- The compiler and its first arguments. -/
  compiler : List Bytes := []
  /-- What replaces the flags that ask the preprocessor for its macros. -/
  dumpFlags : Option (List Bytes) := none
  flags : List Bytes := []
  extraFlags : List Bytes := []
  /-- Which names are kept; without a filter the configuration cannot be used. -/
  filter : Option Selector := some Selector.default
  verbose : Bool := false

namespace Configuration

/-- The settings an environment gives: compiler and flags. -/
def ofEnvironment (env : Environment) : Configuration :=
  { compiler := env.compiler, flags := env.compilerFlags }

/-- The name filter of a usable configuration.  A configuration without compiler is refused
first, one without filter second. -/
def check (c : Configuration) : Except Fault Selector :=
  match c.compiler.head? with
  | none | some [] => .error .noCompiler
  | some (_ :: _) =>
    match c.filter with
    | none => .error .noFilter
    | some keep => .ok keep

/-- The preprocessor flags in effect: those configured, else a request for all macros in the
configured language. -/
def dumpFlagsInEffect (c : Configuration) : List Bytes :=
  c.dumpFlags.getD [bytes "-dM", bytes "-E", bytes "-x", c.language.name]

/-- The command that lists the macros of a source file. -/
def dumpCommand (c : Configuration) (source : Bytes) : List Bytes :=
  c.compiler ++ c.dumpFlagsInEffect ++ c.flags ++ c.extraFlags ++ [source]

/-- The command that builds a loadable module from a source file. -/
def probeCommand (c : Configuration) (source output : Bytes) : List Bytes :=
  c.compiler ++ c.flags ++ c.extraFlags ++
    [source, bytes "-shared", bytes "-fPIC", bytes "-o", output]

end Configuration

end MacroConstants
