import MacroConstants.Machine
import MacroConstants.Proofs.Alike

/-!
# Sessions

In a session a discovery is run as often as one likes, and the sets that were found are looked at in
any order.  That it is verbose is known to the runner of its commands and to its prober, and that
findings are kept quiet is known where they are reported; both only add to what is shown, and the
prober to what is noted.  None of it is ever looked at, so one action of a session comes to the same
on hosts that answer alike, and then so does every action after it.

* `Session`, `Session.ofConfig` : a discovery on a host that may depend on whether it is verbose.
* `Session.Action`, `Session.perform` : what is done in a session, and what comes of it.
* `Session.Action.perform_alike` : one action.
* `Machine.host_eq_showing` : what the flag is to the runner of commands.
* `Compiler.alike` : the hosts of a compiler that looks at nothing but flags and text answer alike,
  whatever they name their files.
* `Session.speaking_alike` : **verbose or not, quiet or not, sessions do and find the same.**
-/

namespace MacroConstants

variable {σ τ τ' α : Type}

/-- A discovery, and a host to run it on. -/
structure Session (τ : Type) where
  discovery : Discovery
  host : Host τ
  /-- Whether there is someone to report failures to. -/
  attached : Bool

namespace Session

/-- A session with a configuration, unless that cannot be used.  The host may depend on whether the
configuration is verbose. -/
def ofConfig (config : Configuration) (host : Bool → Host τ) (attached : Bool) :
    Except Fault (Session τ) :=
  (Discovery.ofConfig config).map fun d => ⟨d, host config.verbose, attached⟩

/-- Who is asked about the constants of a session. -/
def prober (x : Session τ) : Prober τ := ⟨x.host, x.discovery.config, x.attached⟩

/-- What can be done in a session: its discovery is run, or a set is looked at, by its number. -/
inductive Action where
  | run
  | look (set : ℕ) (access : Catalog.Access)

/-- What comes of it: the set that was found, or what is seen of the one that is looked at; or there
is none of this number. -/
inductive Answer where
  | found (k : Catalog)
  | seen (answer : Catalog.Answer)
  | absent

/-- A look at the set of a number. -/
def look (r : Resolver σ) (n : ℕ) (access : Catalog.Access) (sets : List Catalog) (s : σ) :
    Answer × List Catalog × σ :=
  match sets[n]? with
  | none => (.absent, sets, s)
  | some k =>
    let (answer, k, s) := access.look r k s
    (.seen answer, sets.set n k, s)

/-- What an action comes to.  A run that succeeds adds a set to those that were found before; one
that fails leaves them as they are. -/
def Action.perform (x : Session τ) :
    Action → List Catalog → RunState τ → Except Fault Answer × List Catalog × RunState τ
  | run, sets, s =>
    match x.discovery.run x.host s with
    | (.error fault, s) => (.error fault, sets, s)
    | (.ok k, s) => (.ok (.found k), sets ++ [k], s)
  | look n access, sets, s =>
    let (answer, left) := Session.look x.prober.resolver n access sets s
    (.ok answer, left)

/-- What actions come to, one after the other. -/
def perform (x : Session τ) :
    List Action → List Catalog → RunState τ →
      List (Except Fault Answer) × List Catalog × RunState τ
  | [], sets, s => ([], sets, s)
  | action :: actions, sets, s =>
    let (outcome, sets, s) := action.perform x sets s
    let (outcomes, left) := x.perform actions sets s
    (outcome :: outcomes, left)

/-! ### Two sessions -/

theorem look_together {Q : σ → τ → Prop} {r : Resolver σ} {r' : Resolver τ} (h : r.Lockstep Q r')
    (n : ℕ) (access : Catalog.Access) (sets : List Catalog) {s : σ} {t : τ} (hst : Q s t) :
    Together Q (look r n access sets s) (look r' n access sets t) := by
  unfold look
  split
  · exact ⟨rfl, rfl, hst⟩
  · rename_i k hk
    obtain ⟨hanswer, hrest, hstate⟩ := Catalog.look_together h access k hst
    exact ⟨congrArg Answer.seen hanswer, congrArg (sets.set n) hrest, hstate⟩

theorem ofConfig_config (d : Discovery) (host : Bool → Host τ) (attached : Bool) :
    ofConfig d.config host attached = .ok ⟨d, host d.config.verbose, attached⟩ := by
  rw [ofConfig, Discovery.ofConfig_eq_ok_iff.2 rfl]
  rfl

theorem ofConfig_of_unusable {config : Configuration} {fault : Fault}
    (h : config.check = .error fault) (host : Bool → Host τ) (attached : Bool) :
    ofConfig config host attached = .error fault := by
  rw [ofConfig, Discovery.ofConfig_eq_error_iff.2 h]
  rfl

section Alike

variable {c : Configuration} {R : τ → τ' → Prop} {files files' : TemporaryFiles} {x : Session τ}
  {x' : Session τ'} {verbose verbose' : Bool} {s : RunState τ} {s' : RunState τ'}
  (hh : x.host.Alike c R files files' x'.host) (hx : x.discovery.config = c.speaking verbose)
  (hx' : x'.discovery.config = c.speaking verbose')
include hh hx hx'

/-- One action comes to the same in both sessions, which are then still alike. -/
theorem Action.perform_alike (action : Action) (sets : List Catalog)
    (hs : RunState.Alike c R x.host x'.host files files' s s') :
    c.SameOutcome x.host x'.host (action.perform x sets s).1 (action.perform x' sets s').1 ∧
      (action.perform x sets s).2.1 = (action.perform x' sets s').2.1 ∧
      RunState.Alike c R x.host x'.host files files' (action.perform x sets s).2.2
        (action.perform x' sets s').2.2 := by
  cases action with
  | run =>
    obtain ⟨houtcome, hstate⟩ := Discovery.run_alike hh hx hx' hs
    unfold perform
    dsimp only
    generalize x.discovery.run x.host s = y at houtcome hstate ⊢
    generalize x'.discovery.run x'.host s' = y' at houtcome hstate ⊢
    obtain ⟨result, t⟩ := y
    obtain ⟨result', t'⟩ := y'
    cases houtcome with
    | ok k => exact ⟨.ok _, rfl, hstate⟩
    | error hfault => exact ⟨.error hfault, rfl, hstate⟩
  | look n access =>
    have hlockstep := Prober.lockstep hh verbose verbose' x.attached x'.attached
    rw [← hx, ← hx'] at hlockstep
    obtain ⟨hanswer, hrest, hstate⟩ := look_together hlockstep n access sets hs
    unfold perform
    dsimp only
    exact ⟨hanswer ▸ .ok _, hrest, hstate⟩

/-- Sessions that are alike stay so, and whatever is done in them comes to the same. -/
theorem perform_alike (actions : List Action) (sets : List Catalog)
    (hs : RunState.Alike c R x.host x'.host files files' s s') :
    List.Forall₂ (c.SameOutcome x.host x'.host) (x.perform actions sets s).1
        (x'.perform actions sets s').1 ∧
      (x.perform actions sets s).2.1 = (x'.perform actions sets s').2.1 ∧
      RunState.Alike c R x.host x'.host files files' (x.perform actions sets s).2.2
        (x'.perform actions sets s').2.2 := by
  -- both sessions go on with the same sets, so what is looked at next is the same again
  induction actions generalizing sets s s' with
  | nil => exact ⟨.nil, rfl, hs⟩
  | cons action actions ih =>
    obtain ⟨houtcome, hsets, hstate⟩ := action.perform_alike hh hx hx' sets hs
    obtain ⟨houtcomes, hleft⟩ := ih (action.perform x sets s).2.1 hstate
    unfold perform
    dsimp only
    rw [← hsets]
    exact ⟨.cons houtcome houtcomes, hleft⟩

end Alike

end Session

/-! ### Runners and compilers -/

namespace Machine

variable (m : Machine) (verbose : Bool)

theorem run_eq (entries : TemporaryFiles) (argv : List Bytes) (s : State) :
    m.run verbose entries argv s =
      ({ (m.run false entries argv s).1 with
          shown := if verbose && !argv.isEmpty then announcement argv else [] },
        (m.run false entries argv s).2) := by
  unfold run
  cases hargv : argv.isEmpty with
  | true => simp
  | false =>
    rcases m.refusal? s.files with _ | reason
    · simp
    · simp

/-- A machine that is verbose announces its commands, and is a quiet one in all else. -/
theorem host_eq_showing :
    m.host verbose = (m.host false).showing fun i =>
      if verbose && !i.argv.isEmpty then announcement i.argv else [] := by
  have hinvoke : (m.host verbose).invoke = fun i s =>
      ({ ((m.host false).invoke i s).1 with
          shown := if verbose && !i.argv.isEmpty then announcement i.argv else [] },
        ((m.host false).invoke i s).2) :=
    funext fun i => funext fun s => m.run_eq verbose i.files i.argv s
  exact congrArg (fun invoke => { m.host false with invoke }) hinvoke

/-- Machines answer alike whether they are verbose or not, if they do so while they are quiet. -/
theorem alike_of_quiet {m' : Machine} {c : Configuration} {R : State → State → Prop}
    {files files' : TemporaryFiles} (hh : (m.host false).Alike c R files files' (m'.host false))
    (verbose' : Bool) : (m.host verbose).Alike c R files files' (m'.host verbose') := by
  rw [host_eq_showing, host_eq_showing m']
  exact hh.showing _ _

end Machine

/-- A compiler that looks at its flags and at the text of its source file only, and may remember
what it was asked before. -/
structure Compiler (τ : Type) where
  /-- What the preprocessor comes to. -/
  preprocess : List Bytes → Bytes → τ → CommandResult × τ
  /-- What it comes to if a module is built, and the module. -/
  build : List Bytes → Bytes → τ → ScriptedResult × τ

namespace Compiler

/-- A command that ends with its source file is the preprocessor's; of any other the last argument
is the path of the module, and the flags are all arguments but the last five. -/
def invoke (k : Compiler τ) (i : Invocation) (t : τ) : Response × τ :=
  if i.argv.getLast? = some i.source then
    let (result, t) := k.preprocess i.argv.dropLast i.sourceText t
    ({ result }, t)
  else
    let (r, t) := k.build (i.argv.take (i.argv.length - 5)) i.sourceText t
    let leaves := (r.built.map fun content => (i.argv.getLast?.getD [], content)).toList
    ({ result := r.result, leaves }, t)

/-- A host with a compiler; the names it gives are numbers. -/
def host (k : Compiler τ) (temporary : Bytes) (process : ℕ) : Host (ℕ × τ) where
  temporary := temporary
  process := process
  unique t := (.ok (Numeral.decimal t.1), t.1 + 1, t.2)
  restrict t := (none, t)
  write _ t := (none, t)
  invoke i t :=
    let (response, next) := k.invoke i t.2
    (response, t.1, next)
  loaderError t := (none, t)

variable (k : Compiler τ) {c : Configuration} {i : Invocation}

/-- The preprocessor's flags are those of the configuration. -/
theorem invoke_of_dump (hi : i.argv = c.dumpCommand i.source) (t : τ) :
    k.invoke i t =
      ({ result := (k.preprocess (c.dumpCommand []).dropLast i.sourceText t).1 },
        (k.preprocess (c.dumpCommand []).dropLast i.sourceText t).2) := by
  have hflags : i.argv.dropLast = (c.dumpCommand []).dropLast := by
    rw [hi]
    simp [Configuration.dumpCommand]
  unfold invoke
  rw [if_pos (hi ▸ c.getLast?_dumpCommand i.source), hflags]

/-- So are the flags of a probe, and the module is left at its path. -/
theorem invoke_of_buildsAt {path : Bytes} (hi : c.BuildsAt path i) (t : τ) :
    k.invoke i t =
      ({ result := (k.build (c.compiler ++ c.flags ++ c.extraFlags) i.sourceText t).1.result
         leaves := ((k.build (c.compiler ++ c.flags ++ c.extraFlags) i.sourceText t).1.built.map
          fun content => (path ++ bytes ".so", content)).toList },
        (k.build (c.compiler ++ c.flags ++ c.extraFlags) i.sourceText t).2) := by
  have hlast : i.argv.getLast? ≠ some i.source := by
    rw [hi.getLast?]
    exact fun h => hi.ne_source (Option.some.inj h)
  have hflags : i.argv.take (i.argv.length - 5) = c.compiler ++ c.flags ++ c.extraFlags := by
    have htake : ∀ (flags files : List Bytes), files.length = 5 →
        (flags ++ files).take ((flags ++ files).length - 5) = flags := by
      intro flags files hfiles
      rw [List.length_append, hfiles, Nat.add_sub_cancel, List.take_left]
    rw [hi.argv]
    exact htake _ _ rfl
  unfold invoke
  rw [if_neg hlast, hi.getLast?, hflags]
  rfl

/-- What is left at the path of the module is the module that was built. -/
theorem left?_of_buildsAt {path : Bytes} (hi : c.BuildsAt path i) (t : τ) :
    (k.invoke i t).1.left? (path ++ bytes ".so") =
      (k.build (c.compiler ++ c.flags ++ c.extraFlags) i.sourceText t).1.built := by
  rw [invoke_of_buildsAt k hi, Response.left?]
  dsimp only
  cases (k.build (c.compiler ++ c.flags ++ c.extraFlags) i.sourceText t).1.built with
  | none => rfl
  | some content => exact List.lookup_cons_self

/-- The hosts of one compiler answer alike, whatever they name their files. -/
theorem alike (temporary temporary' : Bytes) (process process' : ℕ) (c : Configuration) :
    (k.host temporary process).Alike c (fun t t' => t.2 = t'.2) [] []
      (k.host temporary' process') where
  plain t name hname := by
    obtain rfl := Except.ok.inj hname
    exact Numeral.slash_notMem_decimal t.1
  plain' t name hname := by
    obtain rfl := Except.ok.inj hname
    exact Numeral.slash_notMem_decimal t.1
  placed := ⟨List.forall_mem_nil _, List.forall_mem_nil _⟩
  placed' := ⟨List.forall_mem_nil _, List.forall_mem_nil _⟩
  refused _ _ _ _ := iff_of_false nofun nofun
  taken _ _ _ _ _ _ _ _ _ := iff_of_true (List.forall_mem_nil _) (List.forall_mem_nil _)
  unique _ _ ht := ht
  restrict _ _ ht := ⟨rfl, ht⟩
  write _ _ _ ht := ⟨rfl, ht⟩
  command i i' t t' ht hi := by
    change (k.invoke i t.2).1.result = (k.invoke i' t'.2).1.result ∧
      (k.invoke i t.2).2 = (k.invoke i' t'.2).2
    cases hi with
    | dump hi hi' htext =>
      rw [invoke_of_dump k hi.argv, invoke_of_dump k hi'.argv, htext, ht]
      exact ⟨rfl, rfl⟩
    | probe hi hi' htext =>
      rw [invoke_of_buildsAt k hi, invoke_of_buildsAt k hi', htext, ht]
      exact ⟨rfl, rfl⟩
  module i i' t t' ht hsame path path' hi hi' := by
    change (k.invoke i t.2).1.left? (path ++ bytes ".so") =
      (k.invoke i' t'.2).1.left? (path' ++ bytes ".so")
    rw [left?_of_buildsAt k hi, left?_of_buildsAt k hi', hsame.sourceText, ht]
  loaderError _ _ ht := ht

end Compiler

/-! ### Verbose sessions and others -/

namespace Session

/-- **Verbose or not, quiet or not, sessions do and find the same.**  Two sessions that differ in
whether they are verbose, in whether findings are kept quiet and in the names of their temporary
files are refused with the same fault, or every action comes to the same in both, and the same
commands are run, the same sets found and the same warnings recorded. -/
theorem speaking_alike {c : Configuration} {R : τ → τ' → Prop} {files files' : TemporaryFiles}
    {host : Bool → Host τ} {host' : Bool → Host τ'} {verbose verbose' : Bool} {s : RunState τ}
    {s' : RunState τ'} (hh : (host verbose).Alike c R files files' (host' verbose'))
    (hs : RunState.Alike c R (host verbose) (host' verbose') files files' s s')
    (attached attached' : Bool) :
    (∃ fault, ofConfig (c.speaking verbose) host attached = .error fault ∧
      ofConfig (c.speaking verbose') host' attached' = .error fault) ∨
    ∃ x x', ofConfig (c.speaking verbose) host attached = .ok x ∧
      ofConfig (c.speaking verbose') host' attached' = .ok x' ∧
      ∀ actions sets,
        List.Forall₂ (c.SameOutcome x.host x'.host) (x.perform actions sets s).1
          (x'.perform actions sets s').1 ∧
        (x.perform actions sets s).2.1 = (x'.perform actions sets s').2.1 ∧
        RunState.Alike c R x.host x'.host files files' (x.perform actions sets s).2.2
          (x'.perform actions sets s').2.2 := by
  cases hcheck : c.check with
  | error fault =>
    have hunusable : ∀ verbose, (c.speaking verbose).check = .error fault := fun _ => hcheck
    exact .inl ⟨fault, ofConfig_of_unusable (hunusable verbose) host attached,
      ofConfig_of_unusable (hunusable verbose') host' attached'⟩
  | ok keep =>
    have husable : ∀ verbose, (c.speaking verbose).check = .ok keep := fun _ => hcheck
    refine .inr ⟨_, _, ofConfig_config ⟨c.speaking verbose, keep, husable verbose⟩ host attached,
      ofConfig_config ⟨c.speaking verbose', keep, husable verbose'⟩ host' attached',
      fun actions sets => ?_⟩
    exact perform_alike (c := c) hh rfl rfl actions sets hs

/-- A compiler that lists two definitions of one macro, and can tell the type of that macro but not
its value. -/
def listing : Compiler Unit where
  preprocess _ _ t := ({ out := bytes "#define WIDTH sizeof(int)\n#define WIDTH 4\n" }, t)
  build _ text t :=
    if text = Probe.Source.forType ⟨[bytes "limits.h"], .c⟩ (bytes "WIDTH") then
      ({ built := some (.shared { typeFunction := some (some (bytes "int")) }) }, t)
    else ({ result := { status := 1, err := bytes "no value" } }, t)

/-- Its host, which announces commands or does not. -/
def listingHost (temporary : Bytes) (process : ℕ) (verbose : Bool) : Host (ℕ × Unit) :=
  (listing.host temporary process).showing fun i =>
    if verbose then Machine.announcement i.argv else []

/-- A configuration for it. -/
def listingConfiguration : Configuration :=
  { headers := [bytes "limits.h"], compiler := [bytes "cc"] }

/-- Two sessions find a macro and print its value in vain.  One of them is verbose, has other names
for its files and shows its findings, so what they show is not the same; all else is. -/
theorem speaking_alike_listing :
    ∃ x x',
      ofConfig (listingConfiguration.speaking true) (listingHost (bytes "/tmp") 7) true = .ok x ∧
      ofConfig (listingConfiguration.speaking false) (listingHost (bytes "/var") 8) true = .ok x' ∧
      let left := x.perform [.run, .look 0 (.print true .text)] [] { host := (1, ()) }
      let left' := x'.perform [.run, .look 0 (.print true .text)] []
        { host := (5, ()), diagnostics := { quiet := true } }
      List.Forall₂ (listingConfiguration.SameOutcome x.host x'.host) left.1 left'.1 ∧
        left.2.1 = left'.2.1 ∧
        RunState.Alike listingConfiguration (fun t t' => t.2 = t'.2) x.host x'.host [] []
          left.2.2 left'.2.2 ∧
        left.2.2.invocations.length = 3 ∧ left.2.2.diagnostics.warnings = 1 ∧
        left.2.2.console ≠ left'.2.2.console := by
  have hh : (listingHost (bytes "/tmp") 7 true).Alike listingConfiguration
      (fun t t' => t.2 = t'.2) [] [] (listingHost (bytes "/var") 8 false) :=
    (listing.alike (bytes "/tmp") (bytes "/var") 7 8 listingConfiguration).showing _ _
  have hs : RunState.Alike listingConfiguration (fun t t' => t.2 = t'.2)
      (listingHost (bytes "/tmp") 7 true) (listingHost (bytes "/var") 8 false) [] []
      { host := (1, ()) } { host := (5, ()), diagnostics := { quiet := true } } :=
    ⟨rfl, rfl, rfl, .nil, rfl⟩
  have hx := ofConfig_config ⟨listingConfiguration.speaking true, Selector.default, rfl⟩
    (listingHost (bytes "/tmp") 7) true
  have hx' := ofConfig_config ⟨listingConfiguration.speaking false, Selector.default, rfl⟩
    (listingHost (bytes "/var") 8) true
  rcases speaking_alike hh hs true true with ⟨fault, hfault, -⟩ | ⟨x, x', hok, hok', hsame⟩
  · cases hx.symm.trans hfault
  · obtain rfl := Except.ok.inj (hx.symm.trans hok)
    obtain rfl := Except.ok.inj (hx'.symm.trans hok')
    obtain ⟨houtcomes, hsets, hstate⟩ := hsame [.run, .look 0 (.print true .text)] []
    exact ⟨_, _, hok, hok', houtcomes, hsets, hstate, by decide +kernel, by decide +kernel,
      by decide +kernel⟩

end Session

end MacroConstants
