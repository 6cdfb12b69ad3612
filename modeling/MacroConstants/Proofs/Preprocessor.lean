import MacroConstants.Proofs.Logs

/-!
# When the preprocessor fails

A discovery runs one command, and believes what it printed only if it was not killed and exited with
zero.  If it fails, the discovery ends there: with the command, what it said, its status and whether
it was killed, and with nothing else.  What it printed before is not looked at, so it does not
matter whether that would have been a good dump.  Nothing that a later action could see is left of
it but that the host has moved on, as the logs of commands and of shown texts are never read.

* `Discovery.Ready`, `Discovery.invocation` : the source file is there, and the command that is run
  on it.
* `Discovery.Preprocessed` : how the preprocessor ends.
* `Discovery.dump_of_preprocessed` : all that this does to a state.
* `Session.run_of_preprocessed` : **a discovery fails exactly if its command does, and a session
  goes on as if it had not been tried.**
-/

namespace MacroConstants

variable {τ : Type} {h : Host τ} {c : Configuration} {s : RunState τ} {i : Invocation}
  {response : Response} {t : τ}

/-- What a command that failed comes to: its words, its status and whether it was killed. -/
def CommandResult.fault (r : CommandResult) (argv : List Bytes) : Fault :=
  .command ⟨argv, r.err, r.status, r.signaled⟩

theorem CommandResult.ok_eq_false_iff (r : CommandResult) :
    r.ok = false ↔ r.signaled = true ∨ r.status ≠ 0 := by
  rw [ok, Bool.and_eq_false_iff, Bool.not_eq_false', beq_eq_false_iff_ne]

namespace Discovery

/-- The source file is made, with a name that is not taken, and written. -/
structure Ready (h : Host τ) (c : Configuration) (s : RunState τ) (unique : Bytes) (t : τ) :
    Prop where
  free : s.taken (sourcePath h c unique) = false
  steps : ∃ t₁, h.unique s.host = (.ok unique, t₁) ∧
    h.write (includeLines c.headers) t₁ = (none, t)

/-- The command that lists the macros: it finds the include lines in its source file. -/
def invocation (h : Host τ) (c : Configuration) (s : RunState τ) (unique : Bytes) : Invocation where
  argv := c.dumpCommand (sourcePath h c unique)
  source := sourcePath h c unique
  files := s.files.create (sourcePath h c unique) (.file (.text (includeLines c.headers)))

/-- From a state in which the source file can be made, the preprocessor is run and this comes of
it, with the host in the last state. -/
inductive Preprocessed (h : Host τ) (c : Configuration) (s : RunState τ) :
    Invocation → Response → τ → Prop
  | intro {unique : Bytes} {t t' : τ} {response : Response} : Ready h c s unique t →
      h.invoke (invocation h c s unique) t = (response, t') →
      Preprocessed h c s (invocation h c s unique) response t'

/-- A command that has to succeed, and how it ends. -/
theorem invokeOrFail_of_invoke {argv : List Bytes} {source : Bytes}
    (hinvoke : h.invoke ⟨argv, source, s.files⟩ s.host = (response, t)) :
    invokeOrFail h argv source s =
      (if response.result.ok then .ok response.result.out
        else .error (response.result.fault argv),
        { s with
          host := t
          invocations := s.invocations ++ [⟨argv, source, s.files⟩]
          console := s.console ++ response.shown }) := by
  simp only [invokeOrFail, RunState.invoke, RunState.step, hinvoke, RunState.say]
  split <;> rfl

/-- Nothing is left of the source file, and of the command what it was and what its runner showed.
-/
theorem dump_of_preprocessed (hp : Preprocessed h c s i response t) :
    dump h c s =
      (if response.result.ok then .ok response.result.out
        else .error (response.result.fault i.argv),
        { s with
          host := t
          invocations := s.invocations ++ [i]
          console := s.console ++ response.shown }) := by
  obtain ⟨⟨hfree, t₁, hunique, hwrite⟩, hinvoke⟩ := hp
  rename_i unique t₂
  have hnew := RunState.taken_eq_false_iff.1 hfree
  have hwritten : (s.files.create (sourcePath h c unique) (.file (.text []))).modify
      (sourcePath h c unique) (Entry.put (sourcePath h c unique) (.text (includeLines c.headers))) =
      (invocation h c s unique).files := TemporaryFiles.modify_create hnew _
  unfold dump withSource RunState.createFile
  rw [RunState.create_of_free hunique hfree]
  dsimp only
  rw [RunState.write_of_none hwrite]
  dsimp only
  rw [← sourcePath, hwritten, invokeOrFail_of_invoke hinvoke]
  dsimp only [RunState.remove, invocation]
  rw [TemporaryFiles.remove_create hnew]

/-- A discovery whose preprocessor fails does nothing else. -/
theorem run_of_failed (d : Discovery) (hp : Preprocessed h d.config s i response t)
    (hfailed : response.result.ok = false) :
    d.run h s = (.error (response.result.fault i.argv), { s with
      host := t
      invocations := s.invocations ++ [i]
      console := s.console ++ response.shown }) := by
  refine run_of_dump_error ((dump_of_preprocessed hp).trans ?_)
  rw [hfailed]
  rfl

/-- If it does not fail, what it printed decides what is found and what is reported. -/
theorem run_of_succeeded (d : Discovery) (hp : Preprocessed h d.config s i response t)
    (hok : response.result.ok = true) :
    d.run h s = (.ok (ofDump d.keep response.result.out).1, RunState.reportAll
      (ofDump d.keep response.result.out).2 { s with
        host := t
        invocations := s.invocations ++ [i]
        console := s.console ++ response.shown }) := by
  refine run_of_dump ((dump_of_preprocessed hp).trans ?_)
  rw [hok]
  rfl

end Discovery

namespace Session

/-- **A discovery fails exactly if its command does, and a session goes on as if it had not been
tried.**  However the preprocessor ends and whatever it printed: there is a fault exactly if it was
killed or did not exit with zero, and the fault is this command with its words, its status and
whether it was killed.  Then the state is as before but for the logs and for the host, which has
been asked for a name, to write the source file and to run the command; and whatever is done next
comes to the same as with that host if nothing had been run: the same sets are found and seen, the
same is recorded, and the same commands follow those of the past.  If there is no fault, the set and
the findings are those of the text alone. -/
theorem run_of_preprocessed (x : Session τ)
    (hp : Discovery.Preprocessed x.host x.discovery.config s i response t) :
    (∀ fault, (x.discovery.run x.host s).1 = .error fault ↔
      (response.result.signaled = true ∨ response.result.status ≠ 0) ∧
        fault = .command
          ⟨i.argv, response.result.err, response.result.status, response.result.signaled⟩) ∧
    (response.result.signaled = true ∨ response.result.status ≠ 0 →
      (x.discovery.run x.host s).2 = { s with
        host := t
        invocations := s.invocations ++ [i]
        console := s.console ++ response.shown } ∧
      ∀ actions sets,
        let without := x.perform actions sets { s with host := t }
        ∃ later said, without.2.2.invocations = s.invocations ++ later ∧
          without.2.2.console = s.console ++ said ∧
          x.perform (.run :: actions) sets s =
            (.error (response.result.fault i.argv) :: without.1, without.2.1, { without.2.2 with
              invocations := s.invocations ++ i :: later
              console := s.console ++ (response.shown ++ said) })) ∧
    (response.result.signaled = false → response.result.status = 0 →
      x.discovery.run x.host s =
        (.ok (Discovery.ofDump x.discovery.keep response.result.out).1, RunState.reportAll
          (Discovery.ofDump x.discovery.keep response.result.out).2 { s with
            host := t
            invocations := s.invocations ++ [i]
            console := s.console ++ response.shown })) := by
  have hfailed := response.result.ok_eq_false_iff
  refine ⟨fun fault => ?_, fun hend => ?_, fun halive hzero => ?_⟩
  · cases hok : response.result.ok with
    | true =>
      rw [← hfailed, hok, x.discovery.run_of_succeeded hp hok]
      exact iff_of_false nofun nofun
    | false =>
      rw [← hfailed, hok, x.discovery.run_of_failed hp hok]
      exact ⟨fun h => ⟨rfl, (Except.error.inj h).symm⟩, fun h => congrArg Except.error h.2.symm⟩
  · have hrun := x.discovery.run_of_failed hp (hfailed.2 hend)
    refine ⟨congrArg Prod.snd hrun, fun actions sets => ?_⟩
    -- both go on from one state, with other logs before it
    let bare : RunState τ := { s with host := t, invocations := [], console := [] }
    have hwithout : { s with host := t } = bare.preceded s.invocations s.console := by
      simp [bare, RunState.preceded]
    have hafter : (x.discovery.run x.host s).2 =
        bare.preceded (s.invocations ++ [i]) (s.console ++ response.shown) := by
      rw [hrun]
      simp [bare, RunState.preceded]
    have hperform : x.perform (.run :: actions) sets s =
        (.error (response.result.fault i.argv) ::
          (x.perform actions sets (x.discovery.run x.host s).2).1,
          (x.perform actions sets (x.discovery.run x.host s).2).2) := by
      rw [perform, Action.perform, hrun]
    dsimp only
    rw [hperform, hafter, hwithout, perform_preceded, perform_preceded]
    refine ⟨(x.perform actions sets bare).2.2.invocations,
      (x.perform actions sets bare).2.2.console, rfl, rfl, ?_⟩
    simp only [RunState.preceded, List.append_assoc, List.singleton_append]
  · have hok : response.result.ok = true := by
      rw [CommandResult.ok, halive, hzero]
      rfl
    exact x.discovery.run_of_succeeded hp hok

/-- A discovery on a host that follows a script. -/
def interrupted : Session Script :=
  ⟨Discovery.sampleDiscovery, Host.scripted (bytes "/tmp") 1 none, true⟩

/-- A command that is killed after it printed a good dump, with status zero, and one that is not. -/
def interruption : RunState Script where
  host := { results := [{ result := { signaled := true, out := bytes "#define A 1\n" } },
    { result := { out := bytes "#define B 2\n" } }] }

theorem run_of_preprocessed_interruption :
    ∃ i response t,
      Discovery.Preprocessed interrupted.host interrupted.discovery.config interruption i response
        t ∧
      response.result.signaled = true ∧ response.result.status = 0 ∧
      (interrupted.discovery.run interrupted.host interruption).1 =
        .error (.command ⟨i.argv, [], 0, true⟩) ∧
      (interrupted.discovery.run interrupted.host interruption).2.diagnostics.recorded = [] ∧
      ∃ k, k.names = [bytes "B"] ∧ (interrupted.perform [.run, .run] [] interruption).1 =
        [.error (.command ⟨i.argv, [], 0, true⟩), .ok (.found k)] := by
  have hready : Discovery.Ready interrupted.host interrupted.discovery.config interruption
      (bytes "1") _ := ⟨rfl, _, rfl, rfl⟩
  have hp := Discovery.Preprocessed.intro hready rfl
  obtain ⟨hfault, hfailed, -⟩ := run_of_preprocessed interrupted hp
  obtain ⟨hstate, hnext⟩ := hfailed (.inl rfl)
  obtain ⟨later, said, -, -, hboth⟩ := hnext [.run] []
  exact ⟨_, _, _, hp, rfl, rfl, (hfault _).2 ⟨.inl rfl, rfl⟩,
    congrArg (fun s => s.diagnostics.recorded) hstate, _, rfl, congrArg Prod.fst hboth⟩

end Session

end MacroConstants
