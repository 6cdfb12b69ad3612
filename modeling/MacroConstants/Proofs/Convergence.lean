import MacroConstants.Proofs.Lockstep

/-!
# Resolved reports do not depend on history

If the answers about an expression do not change, then it does not matter what was looked at before
everything is resolved: each constant ends up as it would have if its value had been asked for at
once.  And once everything is resolved nobody is asked again.

* `Resolver.Steady` : the answers do not depend on the state.
* `Constant.settled` : the constant after its value was asked for; asking for its type or its value
  first leads to the same.
* `Catalog.items_report_resolved` : a resolved report settles every constant.
* `Catalog.history_of_known` : where everything is known no look changes anything.
* `Catalog.report_converges` : **resolved reports agree after any two histories**, and whatever
  follows repeats them.
-/

namespace MacroConstants

variable {σ : Type}

/-- Who gives the same answer to the same question in every state. -/
structure Resolver.Steady (r : Resolver σ) : Prop where
  type : ∀ e s s', (r.type e s).1 = (r.type e s').1
  value : ∀ t e s s', (r.value t e s).1 = (r.value t e s').1

theorem Resolver.Steady.recorded {r : Resolver σ} (hr : r.Steady) : r.recorded.Steady where
  type e s s' := hr.type e s.1 s'.1
  value t e s s' := hr.value t e s.1 s'.1

/-- Whatever the two states are, the answers are the same. -/
theorem Resolver.Steady.lockstep {r : Resolver σ} (hr : r.Steady) :
    r.Lockstep (fun _ _ => True) r where
  type e s s' _ _ := ⟨hr.type e s s', trivial⟩
  value t e s s' _ _ _ := ⟨hr.value t e s s', trivial⟩

theorem Answers.steady (a : Answers) : (a.resolver : Resolver σ).Steady where
  type _ _ _ := rfl
  value _ _ _ _ := rfl

namespace Constant

variable {r : Resolver σ} {resolve : Bool} {c : Constant} {s : σ}

/-! ### The constant that asking leads to -/

/-- The constant after its value was asked for. -/
def settled (r : Resolver σ) (s : σ) (c : Constant) : Constant := (c.value r s).2.1

/-- With steady answers the state in which the value is asked for does not matter, … -/
theorem settled_steady (hr : r.Steady) (c : Constant) (s s' : σ) :
    c.settled r s = c.settled r s' :=
  (value_together hr.lockstep c.asks_all trivial).rest

/-- … nor whether the type was asked for before, … -/
theorem settled_type (hr : r.Steady) (c : Constant) (s s' : σ) :
    (c.type r s).2.1.settled r s' = c.settled r s' := by
  rcases hv : c.progress.value? with _ | v
  · have ht := type?_type r c s
    have hv' : (c.type r s).2.1.progress.value? = none := by
      rw [progress_type hv]
      rfl
    rw [settled_steady hr c s' s, settled, settled, value_of_unknown hv', value_of_unknown hv,
      type_of_known ht]
    have hanswer : ((c.type r s).2.1.askValue r (c.type r s).1 s').1 =
        ((c.type r s).2.1.askValue r (c.type r s).1 (c.type r s).2.2).1 :=
      (askValue_together hr.lockstep (asks_all _) trivial _).1
    simp only [hanswer]
  · obtain ⟨t, ht⟩ := Progress.type?_of_value? hv
    rw [type_of_known ht]

/-- … nor whether the value was. -/
theorem settled_value (hr : r.Steady) (c : Constant) (s s' : σ) :
    (c.value r s).2.1.settled r s' = c.settled r s' := by
  rw [settled, value_of_known (value?_value r c s)]
  exact settled_steady hr c s s'

theorem row_resolved (hr : r.Steady) (c : Constant) (s s' : σ) :
    (c.row r true s).2.1 = c.settled r s' := by
  simp only [row, Bool.true_or, ↓reduceIte]
  exact (settled_steady hr _ _ s').trans (settled_type hr c s s')

theorem record_resolved (hr : r.Steady) (c : Constant) (s s' : σ) :
    (c.record r true s).2.1 = c.settled r s' := by
  simp only [record, shownType, shownValue, Bool.true_or, ↓reduceIte]
  exact (settled_steady hr _ _ s').trans (settled_type hr c s s')

theorem valueKnown_value (r : Resolver σ) (c : Constant) (s : σ) :
    (c.value r s).2.1.valueKnown = true := by
  rw [valueKnown, value?_value]
  rfl

theorem valueKnown_row (r : Resolver σ) (c : Constant) (s : σ) :
    (c.row r true s).2.1.valueKnown = true := by
  simp only [row, Bool.true_or, ↓reduceIte]
  exact valueKnown_value r _ _

theorem valueKnown_record (r : Resolver σ) (c : Constant) (s : σ) :
    (c.record r true s).2.1.valueKnown = true := by
  simp only [record, shownType, shownValue, Bool.true_or, ↓reduceIte]
  exact valueKnown_value r _ _

/-! ### Constants whose value is known -/

theorem type_of_valueKnown (h : c.valueKnown = true) (s : σ) : (c.type r s).2 = (c, s) := by
  obtain ⟨v, hv⟩ := Option.isSome_iff_exists.1 h
  obtain ⟨t, ht⟩ := Progress.type?_of_value? hv
  rw [type_of_known ht]

theorem value_of_valueKnown (h : c.valueKnown = true) (s : σ) : (c.value r s).2 = (c, s) := by
  obtain ⟨v, hv⟩ := Option.isSome_iff_exists.1 h
  rw [value_of_known hv]

theorem row_of_valueKnown (h : c.valueKnown = true) (s : σ) : (c.row r resolve s).2 = (c, s) := by
  unfold row
  split
  · simp only [type_of_valueKnown h, value_of_valueKnown h]
  · rfl

theorem record_of_valueKnown (h : c.valueKnown = true) (s : σ) :
    (c.record r resolve s).2 = (c, s) := by
  have ht : (c.shownType r resolve s).2 = (c, s) := by
    unfold shownType
    split
    · simp only [type_of_valueKnown h]
    · rfl
  have hv : (c.shownValue r resolve s).2 = (c, s) := by
    unfold shownValue
    split
    · exact value_of_valueKnown h s
    · rfl
  simp only [record, ht, hv]

end Constant

namespace Catalog

variable {r : Resolver σ} {k : Catalog}

/-! ### Catalogs -/

/-- A resolved report settles every constant. -/
theorem items_report_resolved (hr : r.Steady) (format : Report.Format) (k : Catalog) (s s' : σ) :
    (k.report r true format s).2.1.items = k.items.map (Constant.settled r s') := by
  cases format with
  | text =>
    have h := map_visitAll (f := id) (Constant.rowLook r true)
      (fun c s => Constant.row_resolved hr c s s') k.items s
    rwa [List.map_id] at h
  | json =>
    have h := map_visitAll (f := id) (Constant.recordLook r true)
      (fun c s => Constant.record_resolved hr c s s') k.items s
    rwa [List.map_id] at h

/-- A resolved report settles every constant as it would have been settled before a history. -/
theorem items_report_resolved_history (hr : r.Steady) (format : Report.Format)
    (accesses : List Access) (k : Catalog) (s s' : σ) :
    ((k.history r accesses s).1.report r true format (k.history r accesses s).2).2.1.items =
      k.items.map (Constant.settled r s') := by
  rw [items_report_resolved hr _ _ _ s']
  exact map_history (fun c s => Constant.settled_type hr c s s')
    (fun c s => Constant.settled_value hr c s s') accesses k s

section Known

variable (h : ∀ c ∈ k.items, c.valueKnown = true)
include h

theorem report_of_known (r : Resolver σ) (resolve : Bool) (format : Report.Format) (s : σ) :
    k.report r resolve format s = (k.shown format, k, s) := by
  have hk : (k.report r resolve format s).2 = (k, s) := by
    cases format with
    | text =>
      exact visit_snd_eq_self (Constant.rowLook r resolve)
        (fun c hc => Constant.row_of_valueKnown (h c hc)) s
    | json =>
      exact visit_snd_eq_self (Constant.recordLook r resolve)
        (fun c hc => Constant.record_of_valueKnown (h c hc)) s
  have hp := report_eq_shown r resolve k s format
  rw [hk] at hp
  exact Prod.ext hp hk

theorem access_of_known (r : Resolver σ) (access : Access) (s : σ) :
    access.after r k s = (k, s) := by
  cases access with
  | type name =>
    exact visitNamed_snd_eq_self (typeLook r)
      (fun c hc => Constant.type_of_valueKnown (h c hc)) name s
  | value name =>
    exact visitNamed_snd_eq_self (valueLook r)
      (fun c hc => Constant.value_of_valueKnown (h c hc)) name s
  | print resolve format => exact congrArg Prod.snd (report_of_known h r resolve format s)

/-- Where everything is known no look changes anything. -/
theorem history_of_known (r : Resolver σ) (accesses : List Access) (s : σ) :
    k.history r accesses s = (k, s) := by
  induction accesses with
  | nil => rfl
  | cons access rest ih =>
    simp only [history, access_of_known h]
    exact ih

end Known

/-- A resolved report leaves no constant unknown, whoever is asked. -/
theorem valueKnown_report (r : Resolver σ) (format : Report.Format) (k : Catalog) (s : σ) :
    ∀ c ∈ (k.report r true format s).2.1.items, c.valueKnown = true := by
  have hmap : (k.report r true format s).2.1.items.map Constant.valueKnown =
      k.items.map fun _ => true := by
    cases format with
    | text =>
      exact map_visitAll (Constant.rowLook r true) (Constant.valueKnown_row r) k.items s
    | json =>
      exact map_visitAll (Constant.recordLook r true) (Constant.valueKnown_record r) k.items s
  intro c hc
  have hmem : c.valueKnown ∈ k.items.map fun _ => true := hmap ▸ List.mem_map_of_mem hc
  obtain ⟨-, -, htrue⟩ := List.mem_map.1 hmem
  exact htrue.symm

/-- **Resolved reports agree after any two histories.**  Whatever is looked at afterwards changes
nothing and asks nothing, so that every later report in the same format, resolved or not, is the
same. -/
theorem report_converges (hr : r.Steady) (k : Catalog) (format : Report.Format)
    (before before' : List Access) (s s' : σ × List Query) :
    let left := k.history r.recorded before s
    let left' := k.history r.recorded before' s'
    let printed := left.1.report r.recorded true format left.2
    let printed' := left'.1.report r.recorded true format left'.2
    printed.1 = printed'.1 ∧
    ∀ after resolve,
      let later := printed.2.1.history r.recorded after printed.2.2
      later = printed.2 ∧ later.1.report r.recorded resolve format later.2 = printed := by
  intro left left' printed printed'
  have hsettled (t : σ × List Query) accesses :=
    items_report_resolved_history hr.recorded format accesses k t s
  have hsame : printed.2.1 = printed'.2.1 :=
    Catalog.ext ((hsettled s before).trans (hsettled s' before').symm)
  have hshown : printed.1 = printed.2.1.shown format := report_eq_shown ..
  have hshown' : printed'.1 = printed'.2.1.shown format := report_eq_shown ..
  refine ⟨by rw [hshown, hshown', hsame], fun after resolve => ?_⟩
  have hknown := valueKnown_report r.recorded format left.1 left.2
  intro later
  have hlater : later = printed.2 := history_of_known hknown r.recorded after _
  refine ⟨hlater, ?_⟩
  rw [hlater, report_of_known hknown, ← hshown]

/-- A sum that was half known before everything was resolved. -/
theorem report_converges_sum :
    let answers : Answers := { types := [(bytes "SUM", .int)], values := [(bytes "SUM", .int 3)] }
    let r : Resolver (Unit × List Query) := answers.resolver.recorded
    let k := (Catalog.add {} (.unresolved (bytes "SUM") (some (bytes "(1+2)")))).1
    let left := k.history r [.type (bytes "SUM"), .print false .json] ((), [])
    let printed := k.report r true .text ((), [])
    let printed' := left.1.report r true .text left.2
    printed.1 = bytes "SUM\tint\t3\n" ∧ printed.1 = printed'.1 ∧
      printed.2.1.report r false .text printed.2.2 = printed := by
  intro answers r k left printed printed'
  have h := report_converges (answers.steady (σ := Unit)) k .text []
    [.type (bytes "SUM"), .print false .json] ((), []) ((), [])
  exact ⟨by decide, h.1, (h.2 [] false).2⟩

end Catalog

end MacroConstants
