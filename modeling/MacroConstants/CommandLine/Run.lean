import MacroConstants.CommandLine.Options
import MacroConstants.Discovery
import MacroConstants.Probe

/-!
# A run of the program

* `CommandLine.Verdict` — how a run ends, and what it shows then.
* `CommandLine.evaluate` — the one constant of an expression.
* `CommandLine.discover` — the constants of the headers.
* `CommandLine.run` — the whole run: exit status, standard output and the final state, whose
  console is what went to standard error.
-/

namespace MacroConstants.CommandLine

variable {τ : Type}

/-- How a run ends. -/
inductive Verdict where
  /-- Success, with what is printed. -/
  | printed (out : Bytes)
  | noHeaders
  | failed (fault : Fault)
  deriving DecidableEq, Repr

/-- What a run shows at its end on standard error. -/
def Verdict.complaint : Verdict → Bytes
  | printed _ => []
  | noHeaders => bytes "cmacros: no headers given\n"
  | failed fault =>
    let captured := match fault with
      | .command failure => failure.stderr
      | _ => []
    captured ++ bytes "cmacros error: " ++ fault.shown ++ bytes "\n"

/-- The exit status of a run. -/
def Verdict.status : Verdict → UInt32
  | printed _ => 0
  | _ => 1

/-- What a run prints to standard output. -/
def Verdict.out : Verdict → Bytes
  | printed out => out
  | _ => []

/-- The resolver of a discovery. -/
def resolver (d : Discovery) (h : Host τ) : Resolver (RunState τ) :=
  Prober.resolver { host := h, config := d.config }

/-- Resolves and prints the one constant of an expression, at a type that may be given by its
tag. -/
def evaluate (o : Options) (expression : Bytes) (d : Discovery) (h : Host τ) (s : RunState τ) :
    Verdict × RunState τ :=
  match (o.type.map fun tag => (TypeTag.ofName tag).map some).getD (.ok none) with
  | .error fault => (.failed fault, s)
  | .ok asserted =>
    let (k, _) := Catalog.add {} (Constant.expression expression asserted)
    let (out, _, s) := k.report (resolver d h) true o.format s
    (.printed out, s)

/-- Says something about the progress of a run that asks for it. -/
def progress (o : Options) (text : Bytes) (s : RunState τ) : RunState τ :=
  if o.verbose then s.say (bytes "[cmacros] " ++ text ++ bytes "\n") else s

/-- Finds and prints the constants of the headers. -/
def discover (o : Options) (d : Discovery) (h : Host τ) (s : RunState τ) : Verdict × RunState τ :=
  if d.config.headers.isEmpty then (.noHeaders, s)
  else
    match d.run h (progress o (bytes "Preprocessing headers ...") s) with
    | (.error fault, s) => (.failed fault, s)
    | (.ok k, s) =>
      let s := progress o (Numeral.decimal k.size ++ bytes " macro(s) found") s
      let (out, _, s) := k.report (resolver d h) o.resolve o.format s
      (.printed out, s)

/-- What a run comes to.  The host may depend on whether the configuration is verbose. -/
def verdict [PatternEngine] (o : Options) (env : Environment) (read : Bytes → Option Bytes)
    (host : Bool → Host τ) (s : RunState τ) : Verdict × RunState τ :=
  match (o.config env read).bind Discovery.ofConfig with
  | .error fault => (.failed fault, s)
  | .ok d =>
    let h := host d.config.verbose
    match o.expression with
    | some expression => evaluate o expression d h s
    | none => discover o d h s

/-- The end of a run. -/
structure Outcome (τ : Type) where
  status : UInt32
  out : Bytes
  /-- The final state; its console is what was written to standard error. -/
  world : RunState τ

/-- A run with parsed options. -/
def runOptions [PatternEngine] (o : Options) (env : Environment) (read : Bytes → Option Bytes)
    (host : Bool → Host τ) (s : RunState τ) : Outcome τ :=
  let (v, s) := verdict o env read host s
  ⟨v.status, v.out, s.say v.complaint⟩

/-- A run from its arguments.  Arguments that are not understood end it. -/
def run [PatternEngine] (args : List Bytes) (env : Environment) (read : Bytes → Option Bytes)
    (host : Bool → Host τ) (s : RunState τ) : Outcome τ :=
  match Options.ofArguments args with
  | .error fault => ⟨1, [], s.say (bytes "cmacros: " ++ fault.message ++ bytes "\n")⟩
  | .ok o => runOptions o env read host s

end MacroConstants.CommandLine
