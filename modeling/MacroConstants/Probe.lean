import MacroConstants.Configuration
import MacroConstants.Probe.Source
import MacroConstants.Resolver
import MacroConstants.RunState

/-!
# Probes

A question about an expression is put to the compiler: a source file with one function is built
into a module, the module is loaded, and the function answers.  All files of a probe are in a
directory of its own, which is removed whatever happens.

* `ProbeFailure` — the stage at which no answer could be had.
* `Probe.withDirectory` — something done while a private directory exists.
* `Probe.run` — source, build, load, look up.
* `Prober`, `Prober.resolver` — the resolver that probes.
-/

namespace MacroConstants

/-- Why a probe gave no answer. -/
inductive ProbeFailure where
  | directory (reason : Bytes)
  | unwritten (path reason : Bytes)
  | build (argv : List Bytes) (stderr : Bytes)
  | load (path : Bytes) (reason : Option Bytes)
  | missingSymbol (symbol : Bytes) (reason : Option Bytes)
  deriving DecidableEq, Repr

/-- The wording of a failure. -/
def ProbeFailure.message : ProbeFailure → Bytes
  | directory reason => bytes "cannot create probe directory: " ++ reason
  | unwritten path reason => bytes "cannot write probe " ++ path ++ bytes ": " ++ reason
  | build argv stderr => bytes "probe build failed: " ++ joinWords argv ++ bytes "\n" ++ stderr
  | load path reason =>
    bytes "cannot load probe " ++ path ++ bytes ": " ++ reason.getD (bytes "unknown error")
  | missingSymbol symbol reason =>
    bytes "probe has no symbol " ++ symbol ++ bytes ": " ++ reason.getD (bytes "unknown error")

namespace Probe

variable {τ α : Type}

/-- Does something with the path of a fresh directory that only its owner can enter, and removes
the directory with everything in it. -/
def withDirectory (h : Host τ) (body : Bytes → RunState τ → Except ProbeFailure α × RunState τ)
    (s : RunState τ) : Except ProbeFailure α × RunState τ :=
  match s.createDirectory h (bytes "cmacros-probe") with
  | (.error reason, s) => (.error (.directory reason), s)
  | (.ok path, s) =>
    match s.restrict h path with
    | (some reason, s) => (.error (.directory reason), s.remove path)
    | (none, s) =>
      let (result, s) := body path s
      (result, s.remove path)

/-- The path of a probe's files without their suffixes: kind of probe, process, and the number of
the probe in this process. -/
def base (h : Host τ) (directory stem : Bytes) (number : UInt64) : Bytes :=
  directory ++ bytes "/" ++ stem ++ bytes "-" ++ Numeral.decimal h.process ++ bytes "-" ++
    Numeral.decimal number.toNat

/-- Runs the compiler and keeps the files it leaves in the probe's directory. -/
def build (h : Host τ) (directory : Bytes) (argv : List Bytes) (source : Bytes) (s : RunState τ) :
    CommandResult × RunState τ :=
  let (response, s) := s.invoke h argv source
  let keep (files : TemporaryFiles) (left : Bytes × Content) : TemporaryFiles :=
    files.modify directory (Entry.put left.1 left.2)
  (response.result, { s with files := response.leaves.foldl keep s.files })

/-- Loads a module and looks up a function in it by its name. -/
def load (h : Host τ) (path symbol : Bytes) (function : Bytes → SharedObject → Option α)
    (s : RunState τ) : Except ProbeFailure α × RunState τ :=
  match s.files.read? path with
  | some (.shared object) =>
    match function symbol object with
    | some answer => (.ok answer, s)
    | none =>
      let (reason, s) := s.step h.loaderError
      (.error (.missingSymbol symbol reason), s)
  | _ =>
    let (reason, s) := s.step h.loaderError
    (.error (.load path reason), s)

/-- Writes a source file, builds it, loads what was built and looks up a function in it. -/
def run (h : Host τ) (config : Configuration) (stem text symbol : Bytes)
    (function : Bytes → SharedObject → Option α) (s : RunState τ) :
    Except ProbeFailure α × RunState τ :=
  withDirectory h (fun directory s =>
    let number := s.probes + 1
    let s := { s with probes := number }
    let base := base h directory stem number
    let source := base ++ bytes "." ++ config.language.suffix
    let output := base ++ bytes ".so"
    match s.write h directory source text with
    | (some reason, s) => (.error (.unwritten source reason), s)
    | (none, s) =>
      let argv := config.probeCommand source output
      let (result, s) := build h directory argv source s
      if result.ok then load h output symbol function s
      else (.error (.build argv result.err), s)) s

end Probe

/-- What probes are run with. -/
structure Prober (τ : Type) where
  host : Host τ
  config : Configuration
  /-- Whether there is someone to report failures to. -/
  attached : Bool := true

namespace Prober

variable {τ α : Type} (p : Prober τ)

/-- The headers and language of the probes. -/
def source : Probe.Source := ⟨p.config.headers, p.config.language⟩

/-- Reports a failure, if the configuration is verbose and someone listens. -/
def note (failure : ProbeFailure) (s : RunState τ) : RunState τ :=
  if p.attached && p.config.verbose then s.report { level := .note, message := failure.message }
  else s

/-- A probe's answer; a failure is reported and answers nothing. -/
def ask (stem text symbol : Bytes) (function : Bytes → SharedObject → Option α)
    (s : RunState τ) : Option α × RunState τ :=
  match Probe.run p.host p.config stem text symbol function s with
  | (.ok answer, s) => (some answer, s)
  | (.error failure, s) => (none, p.note failure s)

/-- The type of an expression; `other` if no probe answers or the answer is a null pointer. -/
def type (expression : Bytes) (s : RunState τ) : TypeTag × RunState τ :=
  let (answer, s) := p.ask (bytes "cet") (p.source.forType expression) Probe.Source.typeSymbol
    SharedObject.typeFunctionAt s
  match answer with
  | some (some tag) => (.ofAnswer tag.beforeNul, s)
  | _ => (.other, s)

/-- What a reading is at a type; a null string is no value. -/
def decode : TypeTag → Reading → Option Value
  | .int, r => some (.int r.int.toInt64)
  | .long, r => some (.long r.long)
  | .float, r => some (.float r.float.widen)
  | .double, r => some (.double r.double)
  | .string, r => r.string.map fun s => .string s.beforeNul
  | .pointer, r => some (.pointer r.pointer)
  | .other, _ => none

/-- The value of an expression at a type; nothing at `other`, which is not probed for. -/
def value (type : TypeTag) (expression : Bytes) (s : RunState τ) : Option Value × RunState τ :=
  match p.source.forValue? type expression with
  | none => (none, s)
  | some text =>
    let (answer, s) := p.ask (bytes "cev") text Probe.Source.valueSymbol
      SharedObject.valueFunctionAt s
    (answer.bind (decode type), s)

/-- The resolver that probes. -/
def resolver : Resolver (RunState τ) := ⟨p.type, p.value⟩

end Prober

end MacroConstants
