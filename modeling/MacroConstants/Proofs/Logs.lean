import MacroConstants.Proofs.Session

/-!
# Logs

The commands that were run and the texts that were shown are written down one after the other, and
never read again: no operation looks at either list.  So it does not matter what is in them already.
Whatever is done after other commands comes to the same as without them, and only the lists begin
with something else.

* `RunState.preceded` : the same state, with commands and texts before its own.
* `RunState.IgnoresLogs` : the same is done in both.
* `Prober.lockstep_preceded`, `Discovery.run_ignoresLogs` : the two kinds of operations.
* `Session.perform_preceded` : **any actions of a session.**
-/

namespace MacroConstants

variable {τ α β : Type} {h : Host τ}

namespace RunState

/-- The same state, with commands that were run and a text that was shown before. -/
def preceded (past : List Invocation) (shown : Bytes) (s : RunState τ) : RunState τ :=
  { s with invocations := past ++ s.invocations, console := shown ++ s.console }

/-- What was run and shown before makes no difference to what is done. -/
def IgnoresLogs (act : RunState τ → α × RunState τ) : Prop :=
  ∀ past shown s, act (s.preceded past shown) = ((act s).1, (act s).2.preceded past shown)

variable (past : List Invocation) (shown : Bytes)

/-! ### Steps -/

theorem step_ignoresLogs (act : τ → α × τ) : IgnoresLogs (step act) := fun _ _ _ => rfl

theorem create_ignoresLogs (stem ending : Bytes) (e : Entry) :
    IgnoresLogs (create h stem ending e) := by
  intro past shown s
  unfold create
  rw [step_ignoresLogs h.unique past shown s]
  rcases s.step h.unique with ⟨reason | unique, t⟩
  · rfl
  · have htaken : ∀ path, (t.preceded past shown).taken path = t.taken path := fun _ => rfl
    dsimp only
    rw [htaken]
    split <;> rfl

theorem touch_ignoresLogs (act : τ → Option Bytes × τ) (path : Bytes) (f : Entry → Entry) :
    IgnoresLogs (touch act path f) := by
  intro past shown s
  unfold touch
  rw [step_ignoresLogs act past shown s]
  rcases s.step act with ⟨_ | reason, t⟩ <;> rfl

theorem restrict_ignoresLogs (path : Bytes) : IgnoresLogs (restrict h path) :=
  touch_ignoresLogs h.restrict path Entry.restrict

theorem write_ignoresLogs (entry path text : Bytes) : IgnoresLogs (write h entry path text) :=
  touch_ignoresLogs (h.write text) entry (Entry.put path (.text text))

/-- A command is written down after all others. -/
theorem invoke_ignoresLogs (argv : List Bytes) (source : Bytes) :
    IgnoresLogs (invoke h argv source) := by
  intro past shown s
  simp only [invoke, step, say, preceded, List.append_assoc]

theorem report_preceded (s : RunState τ) (d : Finding) :
    (s.preceded past shown).report d = (s.report d).preceded past shown := by
  simp only [report, preceded, List.append_assoc]

theorem reportAll_preceded (ds : List Finding) (s : RunState τ) :
    (s.preceded past shown).reportAll ds = (s.reportAll ds).preceded past shown := by
  induction ds generalizing s with
  | nil => rfl
  | cons d ds ih =>
    unfold reportAll at ih ⊢
    rw [List.foldl_cons, List.foldl_cons, report_preceded, ih]

end RunState

open RunState

/-! ### Probes -/

namespace Probe

/-- What is done in a directory of its own ignores the logs if it does so in any directory. -/
theorem withDirectory_ignoresLogs
    {body : Bytes → RunState τ → Except ProbeFailure α × RunState τ}
    (hbody : ∀ path, IgnoresLogs (body path)) : IgnoresLogs (withDirectory h body) := by
  intro past shown s
  unfold withDirectory createDirectory
  rw [create_ignoresLogs _ _ _ past shown s]
  rcases s.create h (bytes "cmacros-probe") [] (.directory false []) with ⟨reason | path, t⟩
  · rfl
  · dsimp only
    rw [restrict_ignoresLogs path past shown t]
    rcases t.restrict h path with ⟨_ | reason, t⟩
    · dsimp only
      rw [hbody path past shown t]
      rfl
    · rfl

theorem build_ignoresLogs (directory : Bytes) (argv : List Bytes) (source : Bytes) :
    IgnoresLogs (build h directory argv source) := by
  intro past shown s
  unfold build
  rw [invoke_ignoresLogs argv source past shown s]
  rfl

theorem load_ignoresLogs (path symbol : Bytes) (function : Bytes → SharedObject → Option α) :
    IgnoresLogs (load h path symbol function) := by
  intro past shown s
  have hread : (s.preceded past shown).files.read? path = s.files.read? path := rfl
  unfold load
  rw [hread, step_ignoresLogs h.loaderError past shown s]
  split
  · split <;> rfl
  · rfl

theorem run_ignoresLogs (config : Configuration) (stem text symbol : Bytes)
    (function : Bytes → SharedObject → Option α) :
    IgnoresLogs (run h config stem text symbol function) := by
  refine withDirectory_ignoresLogs fun directory => ?_
  intro past shown s
  have hprobes : (s.preceded past shown).probes = s.probes := rfl
  have hnumbered : { s.preceded past shown with probes := s.probes + 1 } =
      preceded past shown { s with probes := s.probes + 1 } := rfl
  dsimp only
  rw [hprobes, hnumbered, write_ignoresLogs _ _ _ past shown _]
  generalize base h directory stem (s.probes + 1) = path
  rcases write h directory (path ++ bytes "." ++ config.language.suffix) text
    { s with probes := s.probes + 1 } with ⟨_ | reason, t⟩
  · dsimp only
    rw [build_ignoresLogs _ _ _ past shown t]
    dsimp only
    split
    · exact load_ignoresLogs _ symbol function past shown _
    · rfl
  · rfl

end Probe

namespace Prober

variable (p : Prober τ) (past : List Invocation) (shown : Bytes)

theorem note_preceded (failure : ProbeFailure) (s : RunState τ) :
    p.note failure (s.preceded past shown) = (p.note failure s).preceded past shown := by
  unfold note
  split
  · exact report_preceded past shown s _
  · rfl

theorem ask_ignoresLogs (stem text symbol : Bytes) (function : Bytes → SharedObject → Option α) :
    IgnoresLogs (p.ask stem text symbol function) := by
  intro past shown s
  unfold ask
  rw [Probe.run_ignoresLogs _ _ _ _ _ past shown s]
  rcases Probe.run p.host p.config stem text symbol function s with ⟨failure | answer, t⟩
  · dsimp only
    rw [note_preceded]
  · rfl

theorem type_ignoresLogs (expression : Bytes) : IgnoresLogs (p.type expression) := by
  intro past shown s
  unfold type
  rw [ask_ignoresLogs _ _ _ _ _ past shown s]
  dsimp only
  split <;> rfl

theorem value_ignoresLogs (t : TypeTag) (expression : Bytes) :
    IgnoresLogs (p.value t expression) := by
  intro past shown s
  unfold value
  split
  · rfl
  · rw [ask_ignoresLogs _ _ _ _ _ past shown s]

/-- A prober cannot be told apart from itself after other commands. -/
theorem lockstep_preceded :
    p.resolver.Lockstep (fun s t => t = s.preceded past shown) p.resolver where
  type e s t _ ht := by
    have htype := p.type_ignoresLogs e past shown s
    rw [← ht] at htype
    exact ⟨(congrArg Prod.fst htype).symm, congrArg Prod.snd htype⟩
  value tag e s t _ _ ht := by
    have hvalue := p.value_ignoresLogs tag e past shown s
    rw [← ht] at hvalue
    exact ⟨(congrArg Prod.fst hvalue).symm, congrArg Prod.snd hvalue⟩

end Prober

/-! ### Discoveries -/

namespace Discovery

theorem invokeOrFail_ignoresLogs (argv : List Bytes) (source : Bytes) :
    IgnoresLogs (invokeOrFail h argv source) := by
  intro past shown s
  unfold invokeOrFail
  rw [invoke_ignoresLogs argv source past shown s]
  dsimp only
  split <;> rfl

theorem dump_ignoresLogs (c : Configuration) : IgnoresLogs (dump h c) := by
  intro past shown s
  unfold dump withSource createFile
  rw [create_ignoresLogs _ _ _ past shown s]
  rcases s.create h (bytes "c-macros") (bytes "." ++ c.language.suffix) (.file (.text [])) with
    ⟨reason | path, t⟩
  · rfl
  · dsimp only
    rw [write_ignoresLogs _ _ _ past shown t]
    rcases t.write h path path (includeLines c.headers) with ⟨_ | reason, t⟩
    · dsimp only
      rw [invokeOrFail_ignoresLogs _ _ past shown t]
      rfl
    · rfl

theorem run_ignoresLogs (d : Discovery) : IgnoresLogs (d.run h) := by
  intro past shown s
  unfold run
  rw [dump_ignoresLogs _ past shown s]
  rcases dump h d.config s with ⟨fault | text, t⟩
  · rfl
  · dsimp only
    rw [reportAll_preceded]

end Discovery

/-! ### Sessions -/

namespace Session

variable (x : Session τ) (past : List Invocation) (shown : Bytes)

theorem Action.perform_preceded (action : Action) (sets : List Catalog) (s : RunState τ) :
    action.perform x sets (s.preceded past shown) =
      ((action.perform x sets s).1, (action.perform x sets s).2.1,
        (action.perform x sets s).2.2.preceded past shown) := by
  cases action with
  | run =>
    unfold perform
    dsimp only
    rw [x.discovery.run_ignoresLogs past shown s]
    rcases x.discovery.run x.host s with ⟨fault | k, t⟩ <;> rfl
  | look n access =>
    obtain ⟨hanswer, hsets, hstate⟩ :=
      look_together (x.prober.lockstep_preceded past shown) n access sets
        (rfl : s.preceded past shown = s.preceded past shown)
    unfold perform
    dsimp only
    rw [hanswer, hsets, ← hstate]

/-- **Whatever was run and shown before, any actions come to the same**, and leave the same but for
the beginnings of the logs. -/
theorem perform_preceded (actions : List Action) (sets : List Catalog) (s : RunState τ) :
    x.perform actions sets (s.preceded past shown) =
      ((x.perform actions sets s).1, (x.perform actions sets s).2.1,
        (x.perform actions sets s).2.2.preceded past shown) := by
  induction actions generalizing sets s with
  | nil => rfl
  | cons action actions ih =>
    unfold perform
    rw [action.perform_preceded]
    dsimp only
    rw [ih]

end Session

end MacroConstants
