import MacroConstants.CommandLine.Run
import MacroConstants.Proofs.Cleanup
import MacroConstants.Proofs.Exchanges
import MacroConstants.Proofs.Selection
import MacroConstants.Proofs.HostState
import Mathlib.Data.List.Nodup

/-!
# How often the compiler is run

A discovery runs the preprocessor once.  After that a command is run for each question, and the
questions of a history are known from what its constants were told: two for a constant that has a
type and a value, one for a constant that turned out to be `other`, none for a literal.

* `Host.Serves` : a host on which temporary files can always be made and written.
* `Resolver.Charges` : whoever pays a fixed price for each question, as `Prober.charges` says of
  probes on such a host.
* `Resolver.Charges.history` : then a history costs as much as it asks.
* `Constant.length_told` : what one constant of a discovery costs once it is settled.
* `Discovery.length_invocations` : **the number of commands of a discovery and all that follows.**
-/

namespace MacroConstants

variable {σ τ : Type}

/-! ### A host that serves -/

/-- Beside the files a directory for a probe can always be made and closed to others, and what is
written is written.  `good` is what the host keeps from step to step for that. -/
structure Host.Serves (h : Host τ) (files : TemporaryFiles) (good : τ → Prop) : Prop extends
    h.Keeps good where
  named : ∀ t, good t → ∃ name, (h.unique t).1 = .ok name ∧
    ∀ x ∈ files, x.1 ≠ Probe.directory h name
  restricted : ∀ t, good t → (h.restrict t).1 = none
  written : ∀ text t, good t → (h.write text t).1 = none

/-- A scripted host serves, whatever its compiler does, if it has a place for files and none of its
names is taken. -/
theorem Host.serves_scripted {temporary : Bytes} {process : ℕ} {loaderError : Option Bytes}
    {files : TemporaryFiles}
    (hfree : ∀ x ∈ files, ∀ n, x.1 ≠
      Probe.directory (scripted temporary process loaderError) (Numeral.decimal n)) :
    (scripted temporary process loaderError).Serves files
      (fun script => script.refusal = none ∧ script.full = none) where
  unique script hgood := by
    change (script.unique).2.refusal = none ∧ (script.unique).2.full = none
    unfold Script.unique
    split <;> exact hgood
  restrict _ hgood := hgood
  write _ _ hgood := hgood
  invoke i script hgood := by
    change (script.invoke i).2.refusal = none ∧ (script.invoke i).2.full = none
    unfold Script.invoke
    split <;> exact hgood
  loaderError _ hgood := hgood
  named script hgood := by
    refine ⟨Numeral.decimal (script.named + 1), ?_, fun x hx => hfree x hx _⟩
    change (script.unique).1 = _
    unfold Script.unique
    rw [hgood.1]
  restricted _ _ := rfl
  written text script hgood := by
    change (script.write text).1 = none
    unfold Script.write
    rw [hgood.2, ite_self]

/-! ### The price of a question -/

/-- In a good state every question leads to a good state and costs one.  No question is put at
`other`. -/
structure Resolver.Charges (r : Resolver σ) (good : σ → Prop) (spent : σ → ℕ) : Prop where
  type : ∀ e s, good s → good (r.type e s).2 ∧ spent (r.type e s).2 = spent s + 1
  value : ∀ t e s, t ≠ .other → good s →
    good (r.value t e s).2 ∧ spent (r.value t e s).2 = spent s + 1

namespace Resolver.Charges

variable {r : Resolver σ} {good : σ → Prop} {spent : σ → ℕ}

/-- **A history costs as much as it asks.** -/
theorem history (hr : r.Charges good spent) (accesses : List Catalog.Access) (k : Catalog) {s : σ}
    (hs : good s) :
    let left := k.history r.witnessed accesses (s, [])
    good left.2.1 ∧ spent left.2.1 = spent s + left.2.2.length := by
  -- what was spent since the beginning is the number of exchanges
  have hlogs : r.Logs fun s' log => good s' ∧ spent s' = spent s + log.length := {
    type := by
      rintro e s' log ⟨hgood, hspent⟩
      obtain ⟨hgood', hone⟩ := hr.type e s' hgood
      refine ⟨hgood', ?_⟩
      rw [hone, hspent, List.length_append, List.length_singleton, Nat.add_assoc]
    value := by
      rintro t e s' log ht ⟨hgood, hspent⟩
      obtain ⟨hgood', hone⟩ := hr.value t e s' ht hgood
      refine ⟨hgood', ?_⟩
      rw [hone, hspent, List.length_append, List.length_singleton, Nat.add_assoc] }
  exact hlogs.history accesses k ⟨hs, rfl⟩

end Resolver.Charges

/-! ### The price of a probe -/

theorem Host.Serves.exists_prepared {h : Host τ} {good : τ → Prop} {s : RunState τ}
    (hserves : h.Serves s.files good) (hgood : good s.host) (text : Bytes) :
    ∃ unique t, Probe.Prepared h text s unique t := by
  obtain ⟨name, hname, hfree⟩ := hserves.named s.host hgood
  have hmade := hserves.unique s.host hgood
  have hclosed := hserves.restricted _ hmade
  have hwritten := hserves.written text _ (hserves.restrict _ hmade)
  exact ⟨name, _, _, ⟨RunState.taken_eq_false_iff.2 hfree, _, Prod.ext hname rfl,
    Prod.ext hclosed rfl⟩, Prod.ext hwritten rfl⟩

namespace Prober

variable {p : Prober τ} {files : TemporaryFiles} {good : τ → Prop} {s : RunState τ}

theorem length_invocations_ask (hserves : p.host.Serves s.files good) (hgood : good s.host)
    (stem text symbol : Bytes) {α : Type} (function : Bytes → SharedObject → Option α) :
    (p.ask stem text symbol function s).2.invocations.length = s.invocations.length + 1 := by
  obtain ⟨unique, t, hp⟩ := hserves.exists_prepared hgood text
  obtain ⟨result, t', hrun, -⟩ := Probe.run_of_prepared hp rfl
  rw [(ask_eq ..).2.2, hrun]
  exact List.length_append

/-- On a host that serves every question of a prober is a command. -/
theorem charges (hserves : p.host.Serves files good) :
    p.resolver.Charges (fun s => s.files = files ∧ good s.host)
      (fun s => s.invocations.length) where
  type expression s hs := by
    obtain ⟨rfl, hgood⟩ := hs
    refine ⟨⟨files_type, host_type hserves.toKeeps hgood expression⟩, ?_⟩
    change (p.type expression s).2.invocations.length = _
    rw [type_snd]
    exact length_invocations_ask hserves hgood _ _ _ _
  value t expression s ht hs := by
    obtain ⟨rfl, hgood⟩ := hs
    refine ⟨⟨files_value, host_value hserves.toKeeps hgood t expression⟩, ?_⟩
    obtain ⟨text, htext⟩ := p.exists_forValue ht expression
    change (p.value t expression s).2.invocations.length = _
    rw [value_eq htext]
    exact length_invocations_ask hserves hgood _ _ _ _

end Prober

/-! ### The constants of a discovery -/

/-- Whether it was found that the expression has a type other than `other`. -/
def Exchange.finds (expression : Bytes) : Exchange → Bool
  | type e t => e == expression && t != .other
  | value .. => false

namespace Constant

/-- Whether the text a constant was written with is a literal. -/
def isLiteral (c : Constant) : Bool := (c.raw.bind Literal.read?).isSome

/-- A literal is not asked about, and any other macro is asked about by its name. -/
def Discovered (c : Constant) : Prop := c.subject = if c.isLiteral then none else some c.name

end Constant

theorem Definition.discovered (d : Definition) : d.constant.Discovered := by
  unfold Constant.Discovered Constant.isLiteral Definition.constant
  cases h : Literal.read? d.text <;> simp [Constant.literal, Constant.classified,
    Constant.unresolved, h]

/-- Of a constant that was just discovered it is known either all or nothing. -/
theorem Definition.constant_not_typed (d : Definition) (t : TypeTag) :
    d.constant.progress ≠ .typed t := by
  unfold constant
  cases Literal.read? d.text <;> nofun

theorem Definition.told_constant (d : Definition) : d.constant.told = [] := by
  unfold constant
  cases Literal.read? d.text <;> rfl

namespace Constant

variable {r : Resolver σ} {c : Constant} {s : σ} {log : List Exchange}

theorem Discovered.type (hc : c.Discovered) : (c.type r s).2.1.Discovered := by
  unfold Discovered isLiteral at hc ⊢
  rw [subject_type, raw_type, name_type]
  exact hc

theorem Discovered.value (hc : c.Discovered) : (c.value r s).2.1.Discovered := by
  unfold Discovered isLiteral at hc ⊢
  rw [subject_value, raw_value, name_value]
  exact hc

/-- A literal costs nothing.  Any other macro costs one question, and another one if it has a type
that is not `other`. -/
theorem length_told (hc : c.Discovered) (hknown : c.valueKnown = true)
    (hlog : ∀ t, .type c.name t ∈ log ↔ .type c.name t ∈ c.told) :
    c.told.length = (!c.isLiteral).toNat +
      (!c.isLiteral && log.any (Exchange.finds c.name)).toNat := by
  unfold Discovered at hc
  cases hlit : c.isLiteral with
  | true =>
    rw [hlit] at hc
    have htold : c.told = [] := by simp [told, hc]
    simp [htold]
  | false =>
    rw [hlit] at hc
    obtain ⟨v, hv⟩ := Option.isSome_iff_exists.1 hknown
    cases hp : c.progress with
    | fresh => simp [hp, Progress.value?] at hv
    | typed t => simp [hp, Progress.value?] at hv
    | settled t w =>
      have htold : c.told = .type c.name t :: if t = .other then [] else [.value t c.name w] := by
        simp [told, hc, hp]
      -- the type that was answered is the one that is known
      have hfinds : log.any (Exchange.finds c.name) = (t != .other) := by
        rw [Bool.eq_iff_iff, List.any_eq_true, bne_iff_ne]
        constructor
        · rintro ⟨x, hx, hfinds⟩
          cases x with
          | value => cases hfinds
          | type e t' =>
            simp only [Exchange.finds, Bool.and_eq_true, beq_iff_eq, bne_iff_ne] at hfinds
            obtain ⟨rfl, hne⟩ := hfinds
            have hmem := (hlog t').1 hx
            rw [htold] at hmem
            split at hmem <;> simp_all
        · intro hne
          refine ⟨.type c.name t, (hlog t).2 (htold ▸ List.mem_cons_self), ?_⟩
          simp [Exchange.finds, hne]
      rw [htold, hfinds]
      by_cases ht : t = .other
      · simp [ht]
      · simp [ht, bne_iff_ne.2 ht]

/-- Of a type that was answered it is known about whom. -/
theorem eq_name_of_mem_told (hc : c.Discovered) {e : Bytes} {t : TypeTag}
    (h : .type e t ∈ c.told) : e = c.name := by
  unfold Discovered at hc
  have hsubject : c.subject = some e := by
    unfold told at h
    split at h
    · rename_i hs _
      rw [hs, (Exchange.type.inj (List.mem_singleton.1 h)).1]
    · rename_i hs _
      rcases List.mem_cons.1 h with h | h
      · rw [hs, (Exchange.type.inj h).1]
      · split at h <;> simp at h
    · cases h
  rw [hc] at hsubject
  exact (Option.some.inj (Option.ite_none_left_eq_some.1 hsubject).2).symm

end Constant

namespace Catalog

theorem length_flatMap {α β : Type} {f : α → List β} {p q : α → Bool} {l : List α}
    (h : ∀ a ∈ l, (f a).length = (p a).toNat + (q a).toNat) :
    (l.flatMap f).length = l.countP p + l.countP q := by
  induction l with
  | nil => rfl
  | cons a l ih =>
    rw [List.forall_mem_cons] at h
    rw [List.flatMap_cons, List.length_append, h.1, ih h.2, List.countP_cons, List.countP_cons]
    cases p a <;> cases q a <;> simp <;> omega

/-- A history leaves as many constants of a kind, if the kind depends on name and text only. -/
theorem countP_history (r : Resolver σ) (accesses : List Access) (k : Catalog) (s : σ)
    (p : Bytes × Option Bytes → Bool) :
    (k.history r accesses s).1.items.countP (fun c => p (c.name, c.raw)) =
      k.items.countP (fun c => p (c.name, c.raw)) := by
  have hsame : (k.history r accesses s).1.items.map (fun c => (c.name, c.raw)) =
      k.items.map fun c => (c.name, c.raw) :=
    map_history (fun c s => by simp) (fun c s => by simp) accesses k s
  have hcount := congrArg (List.countP p) hsame
  rwa [List.countP_map, List.countP_map] at hcount

theorem exists_definition_of_mem {keep : Selector} {text : Bytes} {c : Constant}
    (h : c ∈ (Discovery.ofDump keep text).1.items) : ∃ d : Definition, c = d.constant := by
  obtain ⟨hitems, -⟩ := addDefinitions_eq (Dump.definitions keep text) {}
  change c ∈ (addDefinitions (Dump.definitions keep text) {}).1.items at h
  rw [hitems] at h
  obtain ⟨d, -, rfl⟩ := List.mem_map.1 h
  exact ⟨d, rfl⟩

/-- Where of each constant all or nothing is known, only resolving changes anything. -/
theorem history_unresolved {k : Catalog} (hk : ∀ c ∈ k.items, ∀ t, c.progress ≠ .typed t)
    (r : Resolver σ) (formats : List Report.Format) (s : σ) :
    k.history r (formats.map (Access.print false)) s = (k, s) := by
  induction formats with
  | nil => rfl
  | cons format formats ih =>
    have hprinted : (k.report r false format s).2 = (k, s) := by
      cases format with
      | text =>
        exact visit_snd_eq_self (Constant.rowLook r false)
          (fun c hc s => Constant.row_of_not_typed (hk c hc) r s) s
      | json => exact report_json_unresolved r k s
    simp only [List.map_cons, history, Access.after, hprinted]
    exact ih

/-- **What a discovery costs once it is resolved**: a question for each macro that is no literal,
and another one for each of these that has a type other than `other`. -/
theorem length_exchanges (r : Resolver σ) (keep : Selector) (text : Bytes)
    {accesses : List Access} {format : Report.Format} (h : .print true format ∈ accesses) (s : σ) :
    let k := (Discovery.ofDump keep text).1
    let log := (k.history r.witnessed accesses (s, [])).2.2
    log.length = k.items.countP (fun c => !c.isLiteral) +
      k.items.countP (fun c => !c.isLiteral && log.any (Exchange.finds c.name)) := by
  intro k log
  have hnew : k.items.flatMap Constant.told = [] := by
    rw [List.flatMap_eq_nil_iff]
    intro c hc
    obtain ⟨d, rfl⟩ := exists_definition_of_mem hc
    exact d.told_constant
  have hperm : (k.items.flatMap Constant.told ++ log).Perm _ := perm_history r accesses k s
  rw [hnew, List.nil_append] at hperm
  have hdiscovered : ∀ c ∈ (k.history r.witnessed accesses (s, [])).1.items, c.Discovered := by
    refine forall_history (fun _ _ hc => hc.type) (fun _ _ hc => hc.value) accesses fun c hc => ?_
    obtain ⟨d, rfl⟩ := exists_definition_of_mem hc
    exact d.discovered
  have hknown := valueKnown_history r.witnessed h k (s, [])
  generalize hleft : (k.history r.witnessed accesses (s, [])).1 = left at hperm hdiscovered hknown
  have hlog : ∀ c ∈ left.items, ∀ t, .type c.name t ∈ log ↔ .type c.name t ∈ c.told := by
    intro c hc t
    rw [hperm.mem_iff, List.mem_flatMap]
    refine ⟨?_, fun ht => ⟨c, hc, ht⟩⟩
    -- no other constant has this name
    rintro ⟨c', hc', ht⟩
    have hname := Constant.eq_name_of_mem_told (hdiscovered c' hc') ht
    obtain rfl : c = c' := List.inj_on_of_nodup_map left.distinct hc hc' hname
    exact ht
  rw [hperm.length_eq, length_flatMap fun c hc =>
    Constant.length_told (hdiscovered c hc) (hknown c hc) (hlog c hc), ← hleft]
  congr 1
  · exact countP_history r.witnessed accesses k (s, []) fun x => !(x.2.bind Literal.read?).isSome
  · exact countP_history r.witnessed accesses k (s, []) fun x =>
      !(x.2.bind Literal.read?).isSome && log.any (Exchange.finds x.1)

end Catalog

/-! ### The whole discovery -/

namespace Discovery

variable {h : Host τ} {s s₁ : RunState τ} {text : Bytes}

theorem length_invocations_dump {config : Configuration}
    (hdump : dump h config s = (.ok text, s₁)) :
    s₁.invocations.length = s.invocations.length + 1 := by
  unfold dump withSource at hdump
  split at hdump
  · cases hdump
  · rename_i path s' hcreate
    have hcreated := congrArg RunState.invocations (congrArg Prod.snd hcreate)
    rw [RunState.invocations_createFile] at hcreated
    split at hdump
    · cases hdump
    · rename_i s'' hwrite
      have hwritten := congrArg RunState.invocations (congrArg Prod.snd hwrite)
      rw [RunState.invocations_write] at hwritten
      unfold invokeOrFail at hdump
      dsimp only at hdump
      split at hdump
      · obtain ⟨-, rfl⟩ := Prod.mk.inj hdump
        rw [hcreated, hwritten]
        exact List.length_append
      · cases hdump

/-- **How often the compiler is run.**  If the preprocessor lists macros, on a host where files can
be made, then the discovery has run one command.  Printing what was discovered without resolving it
runs none and changes nothing.  And whatever else is looked at, in any order and as often as one
likes: as soon as everything was resolved once, the number of commands is one, and one for each
constant whose text is no literal, and another one for each of these for which a type other than
`other` was answered. -/
theorem length_invocations (d : Discovery) {good : τ → Prop} (hserves : h.Serves s.files good)
    (hgood : good s.host) (hdump : dump h d.config s = (.ok text, s₁)) :
    let r := CommandLine.resolver d h
    ∃ k s₂, d.run h s = (.ok k, s₂) ∧ s₂.invocations.length = s.invocations.length + 1 ∧
      (∀ formats : List Report.Format,
        k.history r (formats.map (Catalog.Access.print false)) s₂ = (k, s₂)) ∧
      ∀ accesses format, Catalog.Access.print true format ∈ accesses →
        let left := k.history r.witnessed accesses (s₂, [])
        k.history r accesses s₂ = (left.1, left.2.1) ∧
        left.2.1.invocations.length = s.invocations.length + 1 +
          k.items.countP (fun c => !c.isLiteral) +
          k.items.countP (fun c => !c.isLiteral && left.2.2.any (Exchange.finds c.name)) := by
  intro r
  have hone : s₁.invocations.length = s.invocations.length + 1 := length_invocations_dump hdump
  have hfiles := (restores_dump h d.config s).files
  have hhost := host_dump hserves.toKeeps d.config hgood
  rw [hdump] at hfiles hhost
  refine ⟨_, _, run_of_dump hdump, ?_, fun formats => ?_, fun accesses format hresolved => ?_⟩
  · rw [RunState.invocations_reportAll, hone]
  · refine Catalog.history_unresolved (fun c hc => ?_) r formats _
    obtain ⟨definition, rfl⟩ := Catalog.exists_definition_of_mem hc
    exact definition.constant_not_typed
  · intro left
    have hstart : (s₁.reportAll (ofDump d.keep text).2).files = s.files ∧
        good (s₁.reportAll (ofDump d.keep text).2).host := by
      rw [RunState.files_reportAll, RunState.host_reportAll]
      exact ⟨hfiles, hhost⟩
    have hcharges : r.Charges (fun s' => s'.files = s.files ∧ good s'.host)
        (fun s' => s'.invocations.length) := Prober.charges hserves
    obtain ⟨-, hcost⟩ := hcharges.history accesses (ofDump d.keep text).1 hstart
    have hasked := Catalog.length_exchanges r d.keep text hresolved
      (s₁.reportAll (ofDump d.keep text).2)
    refine ⟨Catalog.history_witnessed r accesses _ (_, []), hcost.trans ?_⟩
    rw [RunState.invocations_reportAll, hone, hasked, Nat.add_assoc _ (List.countP _ _)]

/-- A dump that lists a sum, a statement and a literal. -/
def countedDump : Bytes := bytes "#define N (2+3)\n#define F return\n#define B 7\n"

/-- A state in which the preprocessor is about to print the dump, and modules to answer for the
sum. -/
def countedState : RunState Script where
  host := { results := { result := { out := countedDump } } :: Prober.rehearsal.host.results }

/-- Four commands: the preprocessor, two probes for the sum and one for the statement. -/
theorem length_invocations_counted :
    let h := Host.scripted (bytes "/tmp") 7 none
    let r := CommandLine.resolver sampleDiscovery h
    ∃ k s₂, sampleDiscovery.run h countedState = (.ok k, s₂) ∧ s₂.invocations.length = 1 ∧
      (k.history r [.print false .text, .print true .json, .print true .text]
        s₂).2.invocations.length = 4 := by
  intro h r
  have hserves : h.Serves countedState.files _ := Host.serves_scripted nofun
  have hdump : (dump h sampleDiscovery.config countedState).1 = .ok countedDump := rfl
  obtain ⟨k, s₂, hrun, hone, -, hcount⟩ :=
    length_invocations sampleDiscovery hserves ⟨rfl, rfl⟩ (Prod.ext hdump rfl)
  refine ⟨k, s₂, hrun, hone, ?_⟩
  obtain ⟨hleft, hlength⟩ := hcount [.print false .text, .print true .json, .print true .text]
    .json (by simp)
  rw [hleft, hlength]
  obtain ⟨hk, rfl⟩ := Prod.mk.inj hrun
  obtain rfl := Except.ok.inj hk
  decide

end Discovery

end MacroConstants
