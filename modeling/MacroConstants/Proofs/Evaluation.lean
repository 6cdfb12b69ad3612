import MacroConstants.Proofs.Exchanges
import MacroConstants.Proofs.Probe

/-!
# One expression

To evaluate an expression is to resolve a catalog of one constant.  A constant is told at most its
type and its value, and each of the two costs at most one command, so few commands are run; each of
them builds the module of a probe, and none is the preprocessor's.

* `Configuration.BuildsAt`, `Configuration.Builds` : a command that builds a probe's module, and
  `Configuration.Builds.argv_ne` : which is not the preprocessor's.
* `RunState.Built` : only modules were built, and no more than some number.
* `Prober.built_history` : a history builds no more modules than it asks questions.
* `Catalog.single` : one constant as a catalog, and `Catalog.length_log_single` : what it may ask.
* `Prober.built_expression` : **what an expression costs, by what is asserted of its type.**
-/

namespace MacroConstants

variable {τ α : Type}

/-! ### Commands that build modules -/

namespace Configuration

/-- The command builds a module from a source file, both at this path but for their suffixes. -/
structure BuildsAt (c : Configuration) (path : Bytes) (i : Invocation) : Prop where
  source : i.source = path ++ bytes "." ++ c.language.suffix
  argv : i.argv = c.probeCommand i.source (path ++ bytes ".so")

/-- The command builds the module of a probe from its source file. -/
def Builds (c : Configuration) (i : Invocation) : Prop := ∃ path, c.BuildsAt path i

variable {c : Configuration} {i : Invocation} {path : Bytes}

theorem BuildsAt.getLast? (h : c.BuildsAt path i) :
    i.argv.getLast? = some (path ++ bytes ".so") := by
  simp [h.argv, probeCommand, List.getLast?_append]

/-- No module is named like a source file. -/
theorem BuildsAt.ne_source (h : c.BuildsAt path i) : path ++ bytes ".so" ≠ i.source := by
  have hsuffix : ∀ l : Language, bytes ".so" ≠ bytes "." ++ l.suffix := by
    rintro (_ | _) <;> decide
  rw [h.source, List.append_assoc]
  exact fun heq => hsuffix c.language (List.append_cancel_left heq)

/-- The preprocessor's command ends with the source file. -/
theorem getLast?_dumpCommand (c : Configuration) (source : Bytes) :
    (c.dumpCommand source).getLast? = some source := by
  simp [dumpCommand, List.getLast?_append]

theorem Builds.argv_ne (h : c.Builds i) : i.argv ≠ c.dumpCommand i.source := by
  obtain ⟨path, hi⟩ := h
  intro heq
  have hlast := hi.getLast?
  rw [heq, getLast?_dumpCommand] at hlast
  exact hi.ne_source (Option.some.inj hlast).symm

end Configuration

namespace RunState

/-- From one state to another no commands are run but those that build modules, and no more than
`n` of these. -/
def Built (c : Configuration) (n : ℕ) (s s' : RunState τ) : Prop :=
  ∃ ran, s'.invocations = s.invocations ++ ran ∧ ran.length ≤ n ∧ ∀ i ∈ ran, c.Builds i

variable {c : Configuration} {m n : ℕ} {s s' s'' : RunState τ}

theorem Built.of_idle (h : s'.invocations = s.invocations) : Built c n s s' :=
  ⟨[], by rw [h, List.append_nil], n.zero_le, List.forall_mem_nil _⟩

theorem Built.of_invocation {i : Invocation} (h : s'.invocations = s.invocations ++ [i])
    (hi : c.Builds i) : Built c 1 s s' :=
  ⟨[i], h, le_rfl, List.forall_mem_singleton.2 hi⟩

theorem Built.trans (h : Built c m s s') (h' : Built c n s' s'') : Built c (m + n) s s'' := by
  obtain ⟨ran, hran, hlength, hbuilds⟩ := h
  obtain ⟨ran', hran', hlength', hbuilds'⟩ := h'
  refine ⟨ran ++ ran', ?_, ?_, List.forall_mem_append.2 ⟨hbuilds, hbuilds'⟩⟩
  · rw [hran', hran, List.append_assoc]
  · rw [List.length_append]
    omega

theorem Built.mono (h : Built c m s s') (hle : m ≤ n) : Built c n s s' := by
  obtain ⟨ran, hran, hlength, hbuilds⟩ := h
  exact ⟨ran, hran, hlength.trans hle, hbuilds⟩

end RunState

open RunState

/-- A probe builds at most one module, wherever it fails. -/
theorem Probe.built_run (h : Host τ) (config : Configuration) (stem text symbol : Bytes)
    (function : Bytes → SharedObject → Option α) (s : RunState τ) :
    Built config 1 s (run h config stem text symbol function s).2 := by
  rcases prepared_or h text s with ⟨unique, t, hp⟩ | hno
  · obtain ⟨result, t', heq, -⟩ := run_of_prepared hp rfl
    rw [heq]
    exact .of_invocation rfl ⟨nextBase h stem s unique, rfl, rfl⟩
  · obtain ⟨failure, t, probes, heq⟩ := run_of_not_prepared hno
    rw [heq]
    exact .of_idle rfl

namespace Prober

variable (p : Prober τ) (s : RunState τ)

theorem built_ask (stem text symbol : Bytes) (function : Bytes → SharedObject → Option α) :
    Built p.config 1 s (p.ask stem text symbol function s).2 := by
  obtain ⟨-, -, hinvocations⟩ := ask_eq p stem text symbol function s
  unfold Built
  rw [hinvocations]
  exact Probe.built_run ..

/-- Every question builds at most one module. -/
theorem logs_built : p.resolver.Logs fun s' log => Built p.config log.length s s' where
  type expression s' log hs' := by
    rw [List.length_append, List.length_singleton]
    refine hs'.trans ?_
    change Built p.config 1 s' (p.type expression s').2
    rw [type_snd]
    exact built_ask ..
  value t expression s' log ht hs' := by
    rw [List.length_append, List.length_singleton]
    refine hs'.trans ?_
    change Built p.config 1 s' (p.value t expression s').2
    obtain ⟨text, htext⟩ := p.exists_forValue ht expression
    rw [value_eq htext]
    exact built_ask ..

/-- **A history builds no more modules than it asks questions**, on any host. -/
theorem built_history (accesses : List Catalog.Access) (k : Catalog) :
    Built p.config (k.history p.resolver.witnessed accesses (s, [])).2.2.length s
      (k.history p.resolver accesses s).2 := by
  rw [Catalog.history_witnessed p.resolver accesses k (s, [])]
  exact (p.logs_built s).history accesses k (.of_idle rfl)

end Prober

/-! ### One constant -/

namespace Catalog

/-- One constant as a catalog. -/
def single (c : Constant) : Catalog := (add {} c).1

theorem items_single (c : Constant) : (single c).items = [c] := rfl

end Catalog

/-- A constant is told its type and its value at most. -/
theorem Constant.length_told_le (c : Constant) : c.told.length ≤ 2 := by
  unfold told
  split
  · exact Nat.le_succ 1
  · split <;> simp
  · exact Nat.zero_le 2

theorem Catalog.length_log_single {σ : Type} (r : Resolver σ) (accesses : List Access)
    (c : Constant) (s : σ) :
    c.told.length + ((single c).history r.witnessed accesses (s, [])).2.2.length ≤ 2 := by
  have hperm := (perm_history r accesses (single c) s).length_eq
  have hone : ((single c).history r.witnessed accesses (s, [])).1.items.length = 1 := by
    have hnames := congrArg List.length (map_history (r := r.witnessed) (f := Constant.name)
      (fun c s => c.name_type r.witnessed s) (fun c s => c.name_value r.witnessed s) accesses
      (single c) (s, []))
    rwa [List.length_map, List.length_map, items_single] at hnames
  -- what was told before and what was asked since is together what the constant is told now
  obtain ⟨d, hd⟩ := List.length_eq_one_iff.1 hone
  rw [hd, List.length_append, items_single, List.flatMap_singleton, List.flatMap_singleton] at hperm
  rw [hperm]
  exact d.length_told_le

/-- What counts as told of an expression at first: its type, if that is asserted. -/
theorem Constant.length_told_expression (text : Bytes) (asserted : Option TypeTag) :
    (expression text asserted).told.length = asserted.toList.length := by
  cases asserted with
  | none => rfl
  | some t => cases t <;> rfl

/-- **What an expression costs.**  It is at most two commands, at most one if the type is asserted,
and none if it is asserted to be `other`; and all of them build modules. -/
theorem Prober.built_expression (p : Prober τ) (text : Bytes) (asserted : Option TypeTag)
    (format : Report.Format) (s : RunState τ) :
    Built p.config (2 - asserted.toList.length) s
        ((Catalog.single (.expression text asserted)).report p.resolver true format s).2.2 ∧
      (asserted = some .other →
        ((Catalog.single (.expression text asserted)).report p.resolver true format s).2.2 =
          s) := by
  refine ⟨?_, ?_⟩
  · have hbuilt := p.built_history s [.print true format] (.single (.expression text asserted))
    refine hbuilt.mono ?_
    have hlog := Catalog.length_log_single p.resolver [.print true format]
      (.expression text asserted) s
    rw [Constant.length_told_expression] at hlog
    omega
  · rintro rfl
    have hknown : ∀ c ∈ (Catalog.single (.expression text (some .other))).items,
        c.valueKnown = true := List.forall_mem_singleton.2 rfl
    exact congrArg Prod.snd
      (Catalog.history_of_known hknown p.resolver [.print true format] s)

end MacroConstants
