import MacroConstants.Catalog
import MacroConstants.Configuration
import MacroConstants.Dump
import MacroConstants.Probe.Source
import MacroConstants.RunState

/-!
# Discovery

The headers are put into one source file, the preprocessor lists the macros of it, and each macro
that is kept becomes a constant.

* `Discovery` — a configuration that can be used, with its filter.
* `Discovery.withSource` — something done while the source file exists.
* `Discovery.dump` — what the preprocessor lists.
* `Discovery.run` — the constants.
-/

namespace MacroConstants

/-- The constant of a definition: settled if its text is a literal. -/
def Definition.constant (d : Definition) : Constant :=
  match Literal.read? d.text with
  | some value => .literal d.name d.text value
  | none => .unresolved d.name (some d.text)

namespace Catalog

/-- Adds the constants of definitions in order; the definitions whose name was taken. -/
def addDefinitions : List Definition → Catalog → Catalog × List Definition
  | [], k => (k, [])
  | d :: ds, k =>
    let (k, added) := k.add d.constant
    let (k, rejected) := addDefinitions ds k
    (k, if added then rejected else d :: rejected)

end Catalog

/-- A configuration that can be used. -/
structure Discovery where
  config : Configuration
  keep : Selector
  usable : config.check = .ok keep

namespace Discovery

/-- A discovery for a configuration, unless it cannot be used. -/
def ofConfig (config : Configuration) : Except Fault Discovery :=
  match usable : config.check with
  | .ok keep => .ok ⟨config, keep, usable⟩
  | .error fault => .error fault

variable {τ α : Type}

/-- Does something with the path of a temporary file that holds the include lines, and removes
the file. -/
def withSource (h : Host τ) (config : Configuration)
    (body : Bytes → RunState τ → Except Fault α × RunState τ) (s : RunState τ) :
    Except Fault α × RunState τ :=
  match s.createFile h (bytes "c-macros") config.language.suffix with
  | (.error reason, s) => (.error (.sourceRefused reason), s)
  | (.ok path, s) =>
    match s.write h path path (includeLines config.headers) with
    | (some reason, s) => (.error (.sourceUnwritten path reason), s.remove path)
    | (none, s) =>
      let (result, s) := body path s
      (result, s.remove path)

/-- Runs a command that has to succeed; its standard output. -/
def invokeOrFail (h : Host τ) (argv : List Bytes) (source : Bytes) (s : RunState τ) :
    Except Fault Bytes × RunState τ :=
  let (response, s) := s.invoke h argv source
  let result := response.result
  if result.ok then (.ok result.out, s)
  else (.error (.command ⟨argv, result.err, result.status, result.signaled⟩), s)

/-- What the preprocessor lists for the headers. -/
def dump (h : Host τ) (config : Configuration) (s : RunState τ) : Except Fault Bytes × RunState τ :=
  withSource h config (fun path s => invokeOrFail h (config.dumpCommand path) path s) s

/-- The constants of a dump, and the findings about it: lines that cannot be read, then
definitions of names already defined. -/
def ofDump (keep : Selector) (text : Bytes) : Catalog × List Finding :=
  let (k, rejected) := Catalog.addDefinitions (Dump.definitions keep text) {}
  (k, Dump.warnings text ++ rejected.map Definition.duplicateWarning)

/-- The constants the headers define. -/
def run (d : Discovery) (h : Host τ) (s : RunState τ) : Except Fault Catalog × RunState τ :=
  match dump h d.config s with
  | (.error fault, s) => (.error fault, s)
  | (.ok text, s) =>
    let (k, findings) := ofDump d.keep text
    (.ok k, s.reportAll findings)

end Discovery

end MacroConstants
