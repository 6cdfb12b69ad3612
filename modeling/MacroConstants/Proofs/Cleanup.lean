import MacroConstants.Discovery
import MacroConstants.Proofs.Probe

/-!
# Nothing is left of an operation

A discovery makes a temporary file for its headers and a probe makes a directory for its question.
Both are gone at the end, whichever stage fails and whatever a compiler leaves in the directory,
and what was there before is still there.

* `RunState.Restores` : the temporary files are as they were, and each command found them so, with
  one new entry.
* `Probe.restores_run`, `Discovery.restores_run` : the two kinds of operations.
* `Operation` : either of them, with a host of its own.
* `Operation.restores_history` : **no sequence of operations changes the temporary files**.
-/

namespace MacroConstants

variable {τ α : Type}

namespace RunState

/-- From one state to another the temporary files stay as they are.  The commands that are run in
between find them as they are, with one new entry: the one that is made for the command. -/
structure Restores (s s' : RunState τ) : Prop where
  files : s'.files = s.files
  invocations : ∃ run, s'.invocations = s.invocations ++ run ∧
    ∀ i ∈ run, ∃ path e, s.taken path = false ∧ i.files = s.files.create path e

variable {s s' s'' : RunState τ}

/-- Nothing is changed and nothing is run. -/
theorem Restores.of_idle (hfiles : s'.files = s.files) (hidle : s'.invocations = s.invocations) :
    s.Restores s' := by
  refine ⟨hfiles, [], ?_, ?_⟩
  · rw [hidle, List.append_nil]
  · intro i hi
    exact absurd hi List.not_mem_nil

/-- One command is run, with one new entry. -/
theorem Restores.of_invocation {i : Invocation} {path : Bytes} {e : Entry}
    (hfiles : s'.files = s.files) (hrun : s'.invocations = s.invocations ++ [i])
    (hfree : s.taken path = false) (hi : i.files = s.files.create path e) : s.Restores s' := by
  refine ⟨hfiles, [i], hrun, ?_⟩
  intro j hj
  rw [List.mem_singleton.1 hj]
  exact ⟨path, e, hfree, hi⟩

theorem Restores.trans (h : s.Restores s') (h' : s'.Restores s'') : s.Restores s'' := by
  obtain ⟨run, hrun, hnew⟩ := h.invocations
  obtain ⟨run', hrun', hnew'⟩ := h'.invocations
  refine ⟨h'.files.trans h.files, run ++ run', ?_, ?_⟩
  · rw [hrun', hrun, List.append_assoc]
  · intro i hi
    rcases List.mem_append.1 hi with hi | hi
    · exact hnew i hi
    · -- the later commands start from the same files
      obtain ⟨path, e, hfree, hfiles⟩ := hnew' i hi
      rw [h.files] at hfiles
      rw [taken, h.files] at hfree
      exact ⟨path, e, hfree, hfiles⟩

end RunState

/-! ### Probes -/

theorem Probe.restores_run (h : Host τ) (config : Configuration) (stem text symbol : Bytes)
    (function : Bytes → SharedObject → Option α) (s : RunState τ) :
    s.Restores (run h config stem text symbol function s).2 := by
  rcases prepared_or h text s with ⟨unique, t, hp⟩ | hno
  · obtain ⟨result, t'', heq, -⟩ := run_of_prepared hp rfl
    rw [heq]
    obtain ⟨t₁, ho, -⟩ := hp
    exact .of_invocation rfl rfl ho.free rfl
  · obtain ⟨failure, t, probes, heq⟩ := run_of_not_prepared hno
    rw [heq]
    exact .of_idle rfl rfl

namespace Prober

variable {p : Prober τ} {s : RunState τ}

theorem restores_ask (p : Prober τ) (stem text symbol : Bytes)
    (function : Bytes → SharedObject → Option α) (s : RunState τ) :
    s.Restores (p.ask stem text symbol function s).2 := by
  have hrun := Probe.restores_run p.host p.config stem text symbol function s
  obtain ⟨-, hfiles, hinvocations⟩ := ask_eq p stem text symbol function s
  -- a note about a failure is no file and no command
  refine ⟨hfiles.trans hrun.files, ?_⟩
  rw [hinvocations]
  exact hrun.invocations

theorem restores_call (p : Prober τ) (call : Call) (s : RunState τ) :
    s.Restores (call.after p s) := by
  cases call with
  | type expression =>
    rw [Call.after, type_snd]
    exact restores_ask ..
  | value t expression =>
    by_cases ht : t = .other
    · rw [ht, Call.after, value_other]
      exact .of_idle rfl rfl
    · obtain ⟨text, htext⟩ := p.exists_forValue ht expression
      rw [Call.after, value_eq htext]
      exact restores_ask ..

end Prober

/-! ### Discoveries -/

namespace Discovery

/-- The file that is made for the headers is removed again: if it cannot be written, if the
preprocessor fails, and if it does not. -/
theorem restores_dump (h : Host τ) (config : Configuration) (s : RunState τ) :
    s.Restores (dump h config s).2 := by
  unfold dump withSource RunState.createFile
  cases hunique : h.unique s.host with
  | mk name t =>
    cases name with
    | error reason =>
      rw [RunState.create_of_refused hunique]
      exact .of_idle rfl rfl
    | ok unique =>
      cases hfree : s.taken (RunState.uniquePath h (bytes "c-macros") unique
          (bytes "." ++ config.language.suffix)) with
      | true =>
        rw [RunState.create_of_taken hunique hfree]
        exact .of_idle rfl rfl
      | false =>
        rw [RunState.create_of_free hunique hfree]
        dsimp only
        have hnew := RunState.taken_eq_false_iff.1 hfree
        cases hwrite : h.write (includeLines config.headers) t with
        | mk refusal t₁ =>
          cases refusal with
          | some reason =>
            rw [RunState.write_of_some hwrite]
            exact .of_idle (TemporaryFiles.remove_create hnew) rfl
          | none =>
            rw [RunState.write_of_none hwrite]
            dsimp only
            rw [TemporaryFiles.modify_create hnew]
            unfold invokeOrFail
            dsimp only
            split <;> exact .of_invocation (TemporaryFiles.remove_create hnew) rfl hfree rfl

theorem restores_run (d : Discovery) (h : Host τ) (s : RunState τ) :
    s.Restores (d.run h s).2 := by
  have hdump := restores_dump h d.config s
  unfold run
  split
  · rename_i heq
    rwa [heq] at hdump
  · rename_i heq
    rw [heq] at hdump
    refine ⟨?_, ?_⟩
    · rw [RunState.files_reportAll]
      exact hdump.files
    · rw [RunState.invocations_reportAll]
      exact hdump.invocations

end Discovery

/-! ### Histories -/

/-- Something that needs temporary files, with a host that decides how each of its stages ends. -/
inductive Operation (τ : Type) where
  | discover (d : Discovery) (h : Host τ)
  | probe (p : Prober τ) (call : Prober.Call)

namespace Operation

/-- The state after an operation, whether it succeeds or not. -/
def after : Operation τ → RunState τ → RunState τ
  | discover d h, s => (d.run h s).2
  | probe p call, s => call.after p s

/-- The state after operations in order. -/
def history (ops : List (Operation τ)) (s : RunState τ) : RunState τ :=
  ops.foldl (fun s op => op.after s) s

theorem restores_after (op : Operation τ) (s : RunState τ) : s.Restores (op.after s) := by
  cases op with
  | discover d h => exact d.restores_run h s
  | probe p call => exact p.restores_call call s

/-- **No sequence of operations changes the temporary files.**  Whatever was there before, whatever
the hosts decide at any stage and whatever the commands leave behind: each operation ends with the
files that it began with, which are the files before the first one, and its commands find these
files with nothing but one new entry. -/
theorem restores_history (ops : List (Operation τ)) (s : RunState τ) :
    s.Restores (history ops s) ∧
      ∀ op : Operation τ, (history ops s).Restores (op.after (history ops s)) := by
  refine ⟨?_, fun op => op.restores_after (history ops s)⟩
  induction ops generalizing s with
  | nil => exact .of_idle rfl rfl
  | cons op ops ih => exact (op.restores_after s).trans (ih (op.after s))

end Operation

end MacroConstants
