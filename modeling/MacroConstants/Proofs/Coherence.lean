import MacroConstants.Proofs.History
import MacroConstants.Proofs.Json.Record
import MacroConstants.Proofs.Probe
import MacroConstants.Proofs.Selection

/-!
# Types and values fit together

A probe for a value is written for a type and read back at that type, and a literal is classified
by the value it spells.  So a constant that has a value has the type of that value, whatever the
compiler does, and an object that shows a value shows its type.

* `Resolver.Typed` : the values that are answered have the type that was asked about.
* `Constant.Fits` : **the invariant**, the value has the type that is known, which is not `other`.
* `Constant.Coherent`, `Json.Object.TypedValue` : what it says about a constant and about an object.
* `Catalog.coherent_of_reachable` : **both hold whatever happened to a catalog before.**
-/

namespace MacroConstants

variable {σ : Type}

/-- Every value that is answered has the type that was asked about. -/
def Resolver.Typed (r : Resolver σ) : Prop :=
  ∀ t e s v, (r.value t e s).1 = some v → v.type = t

theorem Prober.typed {τ : Type} (p : Prober τ) : p.resolver.Typed := by
  intro t e s v hv
  have hv : (p.value t e s).1 = some v := hv
  by_cases ht : t = .other
  · rw [ht, value_other] at hv
    cases hv
  · obtain ⟨text, htext⟩ := p.exists_forValue ht e
    rw [value_eq htext] at hv
    obtain ⟨reading, -, hdecode⟩ := Option.bind_eq_some_iff.1 hv
    exact type_of_decode hdecode

theorem TypeTag.name_ne_other {t : TypeTag} (h : t ≠ .other) : t.name ≠ other.name := by
  cases t with
  | other => exact absurd rfl h
  | _ => decide

theorem Literal.type_ne_other {raw : Bytes} {v : Value} (h : read? raw = some v) :
    v.type ≠ .other := by
  obtain ⟨shape, hspells⟩ := read?_eq_some_iff.1 h
  cases hspells with
  | integer | string => exact nofun
  | real hfloating => cases hfloating <;> exact nofun

namespace Constant

variable {r : Resolver σ} {c : Constant} {s : σ}

/-! ### The invariant -/

/-- The value that is known, if there is one, has the type that is known, which is not `other`. -/
def Fits (c : Constant) : Prop :=
  ∀ v, c.progress.value? = some (some v) → c.progress.type? = some v.type ∧ v.type ≠ .other

theorem Origin.fits {o : Origin} (h : o.Faithful) : o.constant.Fits := by
  intro v hv
  obtain ⟨htype, raw, hraw⟩ := h.literal hv
  exact ⟨htype, Literal.type_ne_other hraw⟩

theorem Fits.type (hc : c.Fits) : (c.type r s).2.1.Fits := by
  unfold Constant.type
  split
  · -- just the type is known now
    intro v hv
    cases hv
  · exact hc
  · exact hc

theorem Fits.value (hr : r.Typed) (hc : c.Fits) : (c.value r s).2.1.Fits := by
  unfold Constant.value
  split
  · exact hc
  · intro v hv
    obtain ⟨hne, e, he⟩ := exists_of_askValue (Option.some.inj hv)
    have htype : v.type = (c.type r s).1 := hr _ e _ v he
    exact ⟨congrArg some htype.symm, htype ▸ hne⟩

/-! ### What it says -/

/-- What is known of a constant fits together: the value is known only with the type, and a value
that is there is known to be there and has the type that is known, which is not `other`. -/
structure Coherent (c : Constant) : Prop where
  typeKnown : c.valueKnown = true → c.typeKnown = true
  value : ∀ v, c.progress.value?.join = some v →
    c.valueKnown = true ∧ c.progress.type? = some v.type ∧ v.type ≠ .other

theorem Fits.coherent (hc : c.Fits) : c.Coherent where
  typeKnown h := by
    obtain ⟨v, hv⟩ := Option.isSome_iff_exists.1 h
    obtain ⟨t, ht⟩ := Progress.type?_of_value? hv
    exact Option.isSome_iff_exists.2 ⟨t, ht⟩
  value v hv := by
    have hv := Option.join_eq_some_iff.1 hv
    exact ⟨Option.isSome_iff_exists.2 ⟨_, hv⟩, hc v hv⟩

end Constant

/-- The object has a type and a value, and unless the value is null the type is neither null nor
`other`. -/
def Json.Object.TypedValue (o : Json.Object) : Prop :=
  ∃ type value, o.lookup (bytes "type") = some type ∧ o.lookup (bytes "value") = some value ∧
    (value ≠ .null → type ≠ .null ∧ type ≠ .string TypeTag.other.name)

theorem Constant.Coherent.typedValue {c : Constant} (hc : c.Coherent) :
    Json.Object.TypedValue c.knownRecord.members := by
  refine ⟨_, _, rfl, rfl, fun hvalue => ?_⟩
  cases hv : c.progress.value?.join with
  | none => simp [knownRecord, hv] at hvalue
  | some v =>
    obtain ⟨-, ht, hne⟩ := hc.value v hv
    simp [knownRecord, ht, TypeTag.name_ne_other hne]

theorem Discovery.reachable_of_run {τ : Type} {d : Discovery} {h : Host τ} {s s₁ : RunState τ}
    {k : Catalog} (hrun : d.run h s = (.ok k, s₁)) (r : Resolver σ) : k.Reachable r := by
  obtain ⟨text, rfl⟩ := exists_ofDump_of_run hrun
  exact .discovered d.keep text

namespace Catalog

variable {τ : Type} {r : Resolver σ} {k : Catalog}

theorem Reachable.fits (hr : r.Typed) (hk : k.Reachable r) : ∀ c ∈ k.items, c.Fits :=
  hk.forall_items (fun _ => Constant.Origin.fits) (fun _ _ => Constant.Fits.type)
    (fun _ _ => Constant.Fits.value hr)

/-- **Types and values fit together.**  Whatever happened to a catalog and whatever the compiler did
each time, what is known of each constant fits together, and so does what each object of the printed
catalog shows. -/
theorem coherent_of_reachable {p : Prober τ} (hk : k.Reachable p.resolver) :
    (∀ c ∈ k.items, c.Coherent) ∧
    ∀ resolve s,
      let objects := (k.records p.resolver resolve s).1.map Report.Record.members
      (k.report p.resolver resolve .json s).1 = Json.document objects ∧
        ∀ o ∈ objects, Json.Object.TypedValue o := by
  have hfits := hk.fits p.typed
  refine ⟨fun c hc => (hfits c hc).coherent, fun resolve s => ⟨rfl, ?_⟩⟩
  rw [List.forall_mem_map]
  refine forall_seen_visitAll (Constant.recordLook p.resolver resolve) (fun c s hc => ?_) hfits
  have hleft : (c.record p.resolver resolve s).2.1.Fits :=
    Constant.record_keeps (fun _ _ => Constant.Fits.type)
      (fun _ _ => Constant.Fits.value p.typed) hc
  exact (Constant.record_eq_knownRecord p.resolver resolve c s).symm ▸ hleft.coherent.typedValue

/-- A dump that lists a sum. -/
def sumDump : Bytes := bytes "#define N (2+3)\n"

/-- A state in which the preprocessor is about to print the dump, and modules to answer. -/
def sumState : RunState Script where
  host := { results := { result := { out := sumDump } } :: Prober.rehearsal.host.results }

/-- A sum that was discovered and that a probe found to be five. -/
theorem coherent_of_reachable_sum :
    let p := Prober.rehearsed
    let run := Discovery.sampleDiscovery.run p.host sumState
    let k := (Discovery.ofDump Selector.default sumDump).1
    let asked := (k.visitNamed (valueLook p.resolver) (bytes "N") run.2).2
    run.1 = .ok k ∧ asked.1.items.map (·.progress) = [.settled .int (some (.int 5))] ∧
      ∀ o ∈ (asked.1.records p.resolver false asked.2).1.map Report.Record.members,
        Json.Object.TypedValue o := by
  intro p run k asked
  have hrun : run.1 = .ok k := rfl
  have hk : asked.1.Reachable p.resolver :=
    .valueAsked _ _ (Discovery.reachable_of_run (Prod.ext hrun rfl) p.resolver)
  exact ⟨hrun, by decide, ((coherent_of_reachable hk).2 false asked.2).2⟩

end Catalog

end MacroConstants
