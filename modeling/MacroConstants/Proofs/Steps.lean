import MacroConstants.Proofs.Alike
import Mathlib.Logic.Function.Iterate

/-!
# Calls in steps

A call of a prober does one thing after the other, and each of them is done at once: a directory is
made and closed to others, the counter of probes goes up, the source file is written, the compiler
is run, the module is loaded, the directory is removed, and a failure is noted.  Between two steps
of one call, other calls may have theirs.  A call that is left alone comes to what it comes to in
one go.

* `Prober.Reply`, `Prober.Question` : what a call comes back with, and what it asks.
* `Prober.Stage`, `Prober.Call.advance` : how far a call has come, and its next step.
* `Prober.Progress` : what a step can do to the number of probes, the commands and the directories.
* `Prober.Call.advance_progress` : it does nothing else.
* `Prober.Call.reply_eq_iterate` : **the steps of one call are the call.**
-/

namespace MacroConstants

variable {τ α β : Type}

namespace Probe

/-- The source file of a probe, by its directory and number. -/
def sourceAt (h : Host τ) (config : Configuration) (directory stem : Bytes) (number : UInt64) :
    Bytes :=
  base h directory stem number ++ bytes "." ++ config.language.suffix

/-- The module of a probe. -/
def moduleAt (h : Host τ) (directory stem : Bytes) (number : UInt64) : Bytes :=
  base h directory stem number ++ bytes ".so"

end Probe

namespace Prober

/-- What a call comes back with. -/
inductive Reply where
  | type (type : TypeTag)
  | value (value : Option Value)
  deriving DecidableEq

/-- What a call puts to the compiler, and what it makes of the module. -/
structure Question where
  stem : Bytes
  text : Bytes
  symbol : Bytes
  /-- What is made of the function of a name. -/
  function : Bytes → SharedObject → Option Reply

namespace Question

/-- The question about the type of an expression. -/
def ofType (text : Bytes) : Question where
  stem := bytes "cet"
  text := text
  symbol := Probe.Source.typeSymbol
  function symbol object := (object.typeFunctionAt symbol).map fun answer =>
    .type ((answer.map fun tag => .ofAnswer tag.beforeNul).getD .other)

/-- The question about its value at a type. -/
def ofValue (t : TypeTag) (text : Bytes) : Question where
  stem := bytes "cev"
  text := text
  symbol := Probe.Source.valueSymbol
  function symbol object := (object.valueFunctionAt symbol).map fun reading =>
    .value (decode t reading)

end Question

/-- How far a call has come. -/
inductive Stage where
  | begun
  | made (directory : Bytes)
  | closed (directory : Bytes)
  | numbered (directory : Bytes) (number : UInt64)
  | written (directory : Bytes) (number : UInt64)
  | built (directory : Bytes) (number : UInt64) (result : CommandResult)
  /-- The directory is still there. -/
  | leaving (directory : Bytes) (outcome : Except ProbeFailure Reply)
  /-- A failure is still to be noted. -/
  | left (outcome : Except ProbeFailure Reply)
  | ended (reply : Reply)
  deriving DecidableEq

/-- The directory of a call, from when it was made until it is removed. -/
def Stage.directory? : Stage → Option Bytes
  | made directory | closed directory | numbered directory _ | written directory _
  | built directory _ _ | leaving directory _ => some directory
  | begun | left _ | ended _ => none

/-- The next step of a call with a question; `default` is the reply if there is no answer. -/
def advance (p : Prober τ) (q : Question) (default : Reply) :
    Stage → RunState τ → Stage × RunState τ
  | .begun, s =>
    match s.createDirectory p.host (bytes "cmacros-probe") with
    | (.error reason, s) => (.left (.error (.directory reason)), s)
    | (.ok directory, s) => (.made directory, s)
  | .made directory, s =>
    match s.restrict p.host directory with
    | (some reason, s) => (.leaving directory (.error (.directory reason)), s)
    | (none, s) => (.closed directory, s)
  | .closed directory, s =>
    (.numbered directory (s.probes + 1), { s with probes := s.probes + 1 })
  | .numbered directory number, s =>
    let source := Probe.sourceAt p.host p.config directory q.stem number
    match s.write p.host directory source q.text with
    | (some reason, s) => (.leaving directory (.error (.unwritten source reason)), s)
    | (none, s) => (.written directory number, s)
  | .written directory number, s =>
    let source := Probe.sourceAt p.host p.config directory q.stem number
    let output := Probe.moduleAt p.host directory q.stem number
    let (result, s) := Probe.build p.host directory (p.config.probeCommand source output) source s
    (.built directory number result, s)
  | .built directory number result, s =>
    let source := Probe.sourceAt p.host p.config directory q.stem number
    let output := Probe.moduleAt p.host directory q.stem number
    if result.ok then
      let (outcome, s) := Probe.load p.host output q.symbol q.function s
      (.leaving directory outcome, s)
    else (.leaving directory (.error (.build (p.config.probeCommand source output) result.err)), s)
  | .leaving directory outcome, s => (.left outcome, s.remove directory)
  | .left (.ok reply), s => (.ended reply, s)
  | .left (.error failure), s => (.ended default, p.note failure s)
  | .ended reply, s => (.ended reply, s)

namespace Call

/-- The question of a call; there is none about values at `other`. -/
def question? (p : Prober τ) : Call → Option Question
  | type e => some (.ofType (p.source.forType e))
  | value t e => (p.source.forValue? t e).map (.ofValue t)

theorem slash_notMem_stem {p : Prober τ} {call : Call} {q : Question}
    (hq : call.question? p = some q) : ascii '/' ∉ q.stem := by
  cases call with
  | type e =>
    obtain rfl := Option.some.inj hq
    exact (by decide : ascii '/' ∉ bytes "cet")
  | value t e =>
    obtain ⟨text, -, rfl⟩ := Option.map_eq_some_iff.1 hq
    exact (by decide : ascii '/' ∉ bytes "cev")

/-- The reply of a call that is not answered. -/
def unanswered : Call → Reply
  | type _ => .type .other
  | value _ _ => .value none

/-- The next step of a call.  Without a question it has ended. -/
def advance (p : Prober τ) (call : Call) (stage : Stage) (s : RunState τ) : Stage × RunState τ :=
  match call.question? p with
  | none => (.ended call.unanswered, s)
  | some q => p.advance q call.unanswered stage s

/-- A call in one go. -/
def reply (p : Prober τ) : Call → RunState τ → Reply × RunState τ
  | type e, s =>
    let (answer, s) := p.type e s
    (.type answer, s)
  | value t e, s =>
    let (answer, s) := p.value t e s
    (.value answer, s)

end Call

/-! ### A call that is left alone -/

/-- What is made of an answer has no effect on how it is found. -/
theorem load_map (h : Host τ) (path symbol : Bytes) (function : Bytes → SharedObject → Option α)
    (g : α → β) (s : RunState τ) :
    Probe.load h path symbol (fun name object => (function name object).map g) s =
      ((Probe.load h path symbol function s).1.map g, (Probe.load h path symbol function s).2) := by
  unfold Probe.load
  split
  · rename_i object _
    dsimp only
    cases function symbol object <;> rfl
  · rfl

/-- Eight steps are enough for a call with a question. -/
theorem iterate_advance (p : Prober τ) {q : Question} {function : Bytes → SharedObject → Option α}
    {g : α → Reply} (hq : q.function = fun name object => (function name object).map g)
    (default : Reply) (s : RunState τ) :
    (fun x : Stage × RunState τ => p.advance q default x.1 x.2)^[8] (.begun, s) =
      (.ended (((p.ask q.stem q.text q.symbol function s).1.map g).getD default),
        (p.ask q.stem q.text q.symbol function s).2) := by
  simp only [Function.iterate_succ, Function.comp, Function.iterate_zero, id]
  unfold ask Probe.run Probe.withDirectory
  rcases hcreate : s.createDirectory p.host (bytes "cmacros-probe") with ⟨reason | directory, s₁⟩
  · simp only [advance, hcreate, Option.map_none, Option.getD]
  simp only [advance, hcreate]
  rcases hrestrict : s₁.restrict p.host directory with ⟨_ | reason, s₂⟩
  · dsimp only
    have hsource : ∀ number, Probe.base p.host directory q.stem number ++ bytes "." ++
        p.config.language.suffix = Probe.sourceAt p.host p.config directory q.stem number :=
      fun _ => rfl
    rw [hsource]
    rcases hwrite : RunState.write p.host directory
        (Probe.sourceAt p.host p.config directory q.stem (s₂.probes + 1)) q.text
        { s₂ with probes := s₂.probes + 1 } with ⟨_ | reason, s₃⟩
    · dsimp only
      rw [← Probe.moduleAt]
      generalize Probe.build p.host directory _ _ s₃ = built
      obtain ⟨result, s₄⟩ := built
      dsimp only
      cases hok : result.ok with
      | false => rfl
      | true =>
        simp only [hq, load_map, ↓reduceIte]
        generalize Probe.load p.host _ q.symbol function s₄ = loaded
        obtain ⟨failure | answer, s₅⟩ := loaded <;> rfl
    · rfl
  · rfl

/-- **The steps of one call are the call**: if no other call has a step in between, the call comes
to what it comes to in one go. -/
theorem Call.reply_eq_iterate (p : Prober τ) (call : Call) (s : RunState τ) :
    (fun x : Stage × RunState τ => call.advance p x.1 x.2)^[8] (.begun, s) =
      (.ended (call.reply p s).1, (call.reply p s).2) := by
  cases call with
  | type e =>
    have hsteps := p.iterate_advance (q := .ofType (p.source.forType e)) rfl (.type .other) s
    refine hsteps.trans ?_
    dsimp only [reply, Question.ofType]
    unfold Prober.type
    rcases p.ask (bytes "cet") (p.source.forType e) Probe.Source.typeSymbol
      SharedObject.typeFunctionAt s with ⟨_ | _ | tag, t⟩ <;> rfl
  | value t e =>
    by_cases ht : t = .other
    · rw [ht]
      rfl
    · obtain ⟨text, htext⟩ := p.exists_forValue ht e
      have hquestion : (value t e).question? p = some (.ofValue t text) := by
        rw [question?, htext]
        rfl
      have hsteps := p.iterate_advance (q := .ofValue t text) rfl (.value none) s
      simp only [Call.advance, hquestion, unanswered]
      refine hsteps.trans ?_
      dsimp only [reply, Question.ofValue]
      rw [value_eq htext]
      rcases p.ask (bytes "cev") text Probe.Source.valueSymbol SharedObject.valueFunctionAt s with
        ⟨_ | reading, t⟩ <;> rfl

end Prober

/-! ### What a step does to what is shared -/

namespace RunState

/-- No probe is numbered, no command is run, and the same paths are taken. -/
structure Quiet (s s' : RunState τ) : Prop where
  probes : s'.probes = s.probes
  invocations : s'.invocations = s.invocations
  taken : ∀ path, s'.taken path = s.taken path

variable {h : Host τ} {s : RunState τ}

theorem Quiet.of_host (s : RunState τ) (t : τ) : s.Quiet { s with host := t } :=
  ⟨rfl, rfl, fun _ => rfl⟩

/-- Changing an entry takes no path and frees none. -/
theorem any_modify (files : TemporaryFiles) (entry path : Bytes) (f : Entry → Entry) :
    (files.modify entry f).any (·.1 == path) = files.any (·.1 == path) := by
  rw [TemporaryFiles.modify, List.any_map]
  rfl

theorem touch_quiet (act : τ → Option Bytes × τ) (path : Bytes) (f : Entry → Entry)
    (s : RunState τ) : s.Quiet (s.touch act path f).2 := by
  rcases hact : act s.host with ⟨_ | reason, t⟩
  · rw [touch_of_none hact]
    exact ⟨rfl, rfl, fun p => any_modify s.files path p f⟩
  · rw [touch_of_some hact]
    exact .of_host s t

/-- An entry is made at a path that was free, or nothing is made. -/
theorem create_cases (h : Host τ) (stem ending : Bytes) (e : Entry) (s : RunState τ) :
    (∃ reason t, s.create h stem ending e = (.error reason, { s with host := t })) ∨
    ∃ path t, s.taken path = false ∧ s.create h stem ending e =
      (.ok path, { s with host := t, files := s.files.create path e }) := by
  rcases hunique : h.unique s.host with ⟨reason | unique, t⟩
  · exact .inl ⟨reason, t, create_of_refused hunique⟩
  · cases hfree : s.taken (uniquePath h stem unique ending) with
    | true => exact .inl ⟨_, t, create_of_taken hunique hfree⟩
    | false => exact .inr ⟨_, t, hfree, create_of_free hunique hfree⟩

end RunState

theorem Probe.load_quiet (h : Host τ) (path symbol : Bytes)
    (function : Bytes → SharedObject → Option α) (s : RunState τ) :
    s.Quiet (load h path symbol function s).2 := by
  obtain ⟨result, t, hload, -⟩ := load_spec h path symbol function s
  rw [hload]
  exact .of_host s t

/-- A build runs one command, in a directory that stays. -/
theorem Probe.taken_build (h : Host τ) (directory : Bytes) (argv : List Bytes) (source path : Bytes)
    (s : RunState τ) : (build h directory argv source s).2.taken path = s.taken path := by
  have hkeep : ∀ (leaves : List (Bytes × Content)) (files : TemporaryFiles),
      (leaves.foldl (fun files left => files.modify directory (Entry.put left.1 left.2))
        files).any (·.1 == path) = files.any (·.1 == path) := by
    intro leaves
    induction leaves with
    | nil => exact fun _ => rfl
    | cons left leaves ih =>
      intro files
      rw [List.foldl_cons, ih, RunState.any_modify]
  exact hkeep _ _

namespace Prober

theorem note_quiet (p : Prober τ) (failure : ProbeFailure) (s : RunState τ) :
    s.Quiet (p.note failure s) := by
  unfold note
  split <;> exact ⟨rfl, rfl, fun _ => rfl⟩

namespace Stage

/-- The number of the probe, until the compiler is run. -/
def number? : Stage → Option UInt64
  | numbered _ number | written _ number => some number
  | _ => none

/-- How many stages come before. -/
def order : Stage → ℕ
  | begun => 0
  | made _ => 1
  | closed _ => 2
  | numbered _ _ => 3
  | written _ _ => 4
  | built _ _ _ => 5
  | leaving _ _ => 6
  | left _ => 7
  | ended _ => 8

end Stage

/-- What a step can do.  A directory is made where nothing was; the counter of probes goes up, and
the call takes its number; the compiler is run on the files of this number in the directory; the
directory is removed; or nothing happens to any of them and the call takes nothing new. -/
inductive Progress (p : Prober τ) (s : RunState τ) : Stage → Stage → RunState τ → Prop
  | made {directory : Bytes} {e : Entry} {s' : RunState τ} : s.taken directory = false →
      s'.files = s.files.create directory e → s'.probes = s.probes →
      s'.invocations = s.invocations → Progress p s .begun (.made directory) s'
  | numbered {directory : Bytes} :
      Progress p s (.closed directory) (.numbered directory (s.probes + 1))
        { s with probes := s.probes + 1 }
  | ran {directory stem : Bytes} {number : UInt64} {result : CommandResult} {i : Invocation}
      {s' : RunState τ} : ascii '/' ∉ stem →
      p.config.BuildsAt (Probe.base p.host directory stem number) i →
      s'.invocations = s.invocations ++ [i] → s'.probes = s.probes →
      (∀ path, s'.taken path = s.taken path) →
      Progress p s (.written directory number) (.built directory number result) s'
  | removed {directory : Bytes} {outcome : Except ProbeFailure Reply} :
      Progress p s (.leaving directory outcome) (.left outcome) (s.remove directory)
  | quiet {stage stage' : Stage} {s' : RunState τ} : s.Quiet s' → stage.order ≤ stage'.order →
      (∀ directory, stage'.directory? = some directory → stage.directory? = some directory) →
      (∀ number, stage'.number? = some number → stage.number? = some number) →
      Progress p s stage stage' s'

theorem advance_progress (p : Prober τ) {q : Question} (hq : ascii '/' ∉ q.stem) (default : Reply)
    (stage : Stage) (s : RunState τ) :
    Progress p s stage (p.advance q default stage s).1 (p.advance q default stage s).2 := by
  cases stage with
  | begun =>
    rcases RunState.create_cases p.host (bytes "cmacros-probe") [] (.directory false []) s with
      ⟨reason, t, heq⟩ | ⟨directory, t, hfree, heq⟩
    · simp only [advance, RunState.createDirectory, heq]
      exact .quiet (.of_host s t) (Nat.zero_le _) nofun nofun
    · simp only [advance, RunState.createDirectory, heq]
      exact .made hfree rfl rfl rfl
  | made directory =>
    have hquiet : s.Quiet (s.restrict p.host directory).2 := RunState.touch_quiet ..
    rcases heq : s.restrict p.host directory with ⟨_ | reason, s'⟩
    all_goals
      rw [heq] at hquiet
      simp only [advance, heq]
      exact .quiet hquiet (by simp [Stage.order]) (fun _ => id) nofun
  | closed directory => exact .numbered
  | numbered directory number =>
    have hquiet : s.Quiet (s.write p.host directory
      (Probe.sourceAt p.host p.config directory q.stem number) q.text).2 := RunState.touch_quiet ..
    rcases heq : s.write p.host directory
      (Probe.sourceAt p.host p.config directory q.stem number) q.text with ⟨_ | reason, s'⟩
    · rw [heq] at hquiet
      simp only [advance, heq]
      exact .quiet hquiet (by simp [Stage.order]) (fun _ => id) (fun _ => id)
    · rw [heq] at hquiet
      simp only [advance, heq]
      exact .quiet hquiet (by simp [Stage.order]) (fun _ => id) nofun
  | written directory number => exact .ran hq ⟨rfl, rfl⟩ rfl rfl fun _ => Probe.taken_build ..
  | built directory number result =>
    cases hok : result.ok with
    | false =>
      simp only [advance, hok, Bool.false_eq_true, ↓reduceIte]
      exact .quiet (.of_host s s.host) (by simp [Stage.order]) (fun _ => id) nofun
    | true =>
      simp only [advance, hok, ↓reduceIte]
      exact .quiet (Probe.load_quiet ..) (by simp [Stage.order]) (fun _ => id) nofun
  | leaving directory outcome => exact .removed
  | left outcome =>
    cases outcome with
    | ok reply =>
      exact .quiet (.of_host s s.host) (by simp [advance, Stage.order]) nofun nofun
    | error failure =>
      exact .quiet (p.note_quiet failure s) (by simp [advance, Stage.order]) nofun nofun
  | ended reply => exact .quiet (.of_host s s.host) le_rfl nofun nofun

/-- Each step of a call does one of these things. -/
theorem Call.advance_progress (p : Prober τ) (call : Call) (stage : Stage) (s : RunState τ) :
    Progress p s stage (call.advance p stage s).1 (call.advance p stage s).2 := by
  unfold Call.advance
  split
  · refine .quiet (.of_host s s.host) ?_ nofun nofun
    cases stage <;> simp [Stage.order]
  · rename_i q hq
    exact p.advance_progress (call.slash_notMem_stem hq) call.unanswered stage s

end Prober

end MacroConstants
