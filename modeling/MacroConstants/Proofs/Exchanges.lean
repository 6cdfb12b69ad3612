import MacroConstants.Proofs.Convergence
import MacroConstants.Proofs.Lockstep

/-!
# What was asked about a catalog

A look at a catalog asks about one constant after the other, and a constant remembers what it was
told.  So all that was ever asked can be read off the constants, and nothing is lost or asked twice.

* `Catalog.Look.Keeps`, `Catalog.history_keeps` : what asking about any one constant of a list
  keeps, a history keeps.
* `Catalog.history_witnessed` : writing the exchanges down changes nothing.
* `Resolver.Logs.history` : what no question breaks, no history breaks.
* `Constant.told` : what a constant was told, by what is known of it.
* `Catalog.perm_history` : **conservation**, the exchanges of a history are what its constants were
  told in it.
* `Catalog.valueKnown_history` : a history with a resolved report settles every constant.
-/

namespace MacroConstants

variable {σ α : Type}

namespace Catalog

/-! ### One constant at a time -/

/-- A look at any one constant of a list keeps `J`. -/
def Look.Keeps (look : Look σ α) (J : List Constant → σ → Prop) : Prop :=
  ∀ left c right s, J (left ++ c :: right) s →
    J (left ++ (look.run c s).2.1 :: right) (look.run c s).2.2

section Keeping

variable {J : List Constant → σ → Prop} {look : Look σ α} {r : Resolver σ}

theorem Look.Keeps.visitAll (h : look.Keeps J) (left : List Constant) {cs : List Constant}
    {s : σ} (hs : J (left ++ cs) s) :
    J (left ++ (visitAll look cs s).2.1) (visitAll look cs s).2.2 := by
  induction cs generalizing left s with
  | nil => exact hs
  | cons c cs ih =>
    -- the constant that was looked at joins those on the left
    have hc := h left c cs s hs
    rw [List.append_cons] at hc
    have hcs := ih (left ++ [(look.run c s).2.1]) hc
    rwa [← List.append_cons] at hcs

theorem Look.Keeps.visitFirst (h : look.Keeps J) (name : Bytes) (left : List Constant)
    {cs : List Constant} {s : σ} (hs : J (left ++ cs) s) :
    J (left ++ (visitFirst look name cs s).2.1) (visitFirst look name cs s).2.2 := by
  induction cs generalizing left s with
  | nil => exact hs
  | cons c cs ih =>
    unfold Catalog.visitFirst
    split
    · exact h left c cs s hs
    · rw [List.append_cons] at hs
      have hcs := ih (left ++ [c]) hs
      rwa [← List.append_cons] at hcs

variable (htype : (typeLook r).Keeps J) (hvalue : (valueLook r).Keeps J)
include htype hvalue

theorem rowLook_keeps (resolve : Bool) : (Constant.rowLook r resolve).Keeps J := by
  intro left c right s hs
  change J (left ++ (c.row r resolve s).2.1 :: right) (c.row r resolve s).2.2
  unfold Constant.row
  split
  · exact hvalue left _ right _ (htype left c right s hs)
  · exact hs

theorem recordLook_keeps (resolve : Bool) : (Constant.recordLook r resolve).Keeps J := by
  intro left c right s hs
  have htyped : J (left ++ (c.shownType r resolve s).2.1 :: right)
      (c.shownType r resolve s).2.2 := by
    unfold Constant.shownType
    split
    · exact htype left c right s hs
    · exact hs
  change J (left ++ ((c.shownType r resolve s).2.1.shownValue r resolve
    (c.shownType r resolve s).2.2).2.1 :: right)
    ((c.shownType r resolve s).2.1.shownValue r resolve (c.shownType r resolve s).2.2).2.2
  unfold Constant.shownValue
  split
  · exact hvalue left _ right _ htyped
  · exact htyped

theorem access_keeps (access : Access) {k : Catalog} {s : σ} (hs : J k.items s) :
    J (access.after r k s).1.items (access.after r k s).2 := by
  cases access with
  | type name => exact htype.visitFirst name [] hs
  | value name => exact hvalue.visitFirst name [] hs
  | print resolve format =>
    cases format with
    | text => exact (rowLook_keeps htype hvalue resolve).visitAll [] hs
    | json => exact (recordLook_keeps htype hvalue resolve).visitAll [] hs

/-- **What asking about any one constant keeps, a history keeps.** -/
theorem history_keeps (accesses : List Access) {k : Catalog} {s : σ} (hs : J k.items s) :
    J (k.history r accesses s).1.items (k.history r accesses s).2 := by
  induction accesses generalizing k s with
  | nil => exact hs
  | cons access rest ih => exact ih (access_keeps htype hvalue access hs)

end Keeping

/-- What asking keeps of a constant holds of all constants after a history. -/
theorem forall_history {r : Resolver σ} {P : Constant → Prop}
    (htype : ∀ c s, P c → P (c.type r s).2.1) (hvalue : ∀ c s, P c → P (c.value r s).2.1)
    (accesses : List Access) {k : Catalog} {s : σ} (hk : ∀ c ∈ k.items, P c) :
    ∀ c ∈ (k.history r accesses s).1.items, P c := by
  have hone : ∀ left c right d, (P c → P d) → (∀ x ∈ left ++ c :: right, P x) →
      ∀ x ∈ left ++ d :: right, P x := by
    intro left c right d hd hall
    rw [List.forall_mem_append, List.forall_mem_cons] at hall ⊢
    exact ⟨hall.1, hd hall.2.1, hall.2.2⟩
  exact history_keeps (J := fun cs _ => ∀ c ∈ cs, P c)
    (fun left c right s => hone left c right _ (htype c s))
    (fun left c right s => hone left c right _ (hvalue c s)) accesses hk

theorem history_append (r : Resolver σ) (before after : List Access) (k : Catalog) (s : σ) :
    k.history r (before ++ after) s =
      (k.history r before s).1.history r after (k.history r before s).2 := by
  induction before generalizing k s with
  | nil => rfl
  | cons access rest ih => exact ih _ _

end Catalog

/-! ### Writing down -/

/-- A resolver gives the same answers whether they are written down or not. -/
theorem Resolver.lockstep_witnessed (r : Resolver σ) :
    r.witnessed.Lockstep (fun w s => w.1 = s) r where
  type e w s _ hws := by
    subst hws
    exact ⟨rfl, rfl⟩
  value type e w s _ _ hws := by
    subst hws
    exact ⟨rfl, rfl⟩

/-- Writing the exchanges down changes neither the catalog nor the state. -/
theorem Catalog.history_witnessed (r : Resolver σ) (accesses : List Access) (k : Catalog)
    (w : σ × List Exchange) :
    k.history r accesses w.1 =
      ((k.history r.witnessed accesses w).1, (k.history r.witnessed accesses w).2.1) := by
  obtain ⟨hcatalog, hstate⟩ := history_together r.lockstep_witnessed accesses k (s := w) rfl
  exact Prod.ext hcatalog.symm hstate.symm

/-! ### What a question keeps -/

/-- Whatever is known of a state and of what is written down, no question breaks it.  No question is
put at `other`. -/
structure Resolver.Logs (r : Resolver σ) (I : σ → List Exchange → Prop) : Prop where
  type : ∀ e s log, I s log → I (r.type e s).2 (log ++ [.type e (r.type e s).1])
  value : ∀ t e s log, t ≠ .other → I s log →
    I (r.value t e s).2 (log ++ [.value t e (r.value t e s).1])

namespace Resolver.Logs

variable {r : Resolver σ} {I : σ → List Exchange → Prop} (hr : r.Logs I)
include hr

theorem constant_type (c : Constant) {w : σ × List Exchange} (hw : I w.1 w.2) :
    I (c.type r.witnessed w).2.2.1 (c.type r.witnessed w).2.2.2 := by
  unfold Constant.type Constant.askType
  cases c.progress with
  | fresh =>
    cases c.subject with
    | none => exact hw
    | some e => exact hr.type e w.1 w.2 hw
  | typed t => exact hw
  | settled t v => exact hw

theorem constant_askValue (c : Constant) (t : TypeTag) {w : σ × List Exchange} (hw : I w.1 w.2) :
    I (c.askValue r.witnessed t w).2.1 (c.askValue r.witnessed t w).2.2 := by
  unfold Constant.askValue
  cases c.subject with
  | none => exact hw
  | some e =>
    by_cases ht : t = .other
    · rw [ht]
      exact hw
    · simp only [Resolver.valueAt_of_ne ht]
      exact hr.value t e w.1 w.2 ht hw

theorem constant_value (c : Constant) {w : σ × List Exchange} (hw : I w.1 w.2) :
    I (c.value r.witnessed w).2.2.1 (c.value r.witnessed w).2.2.2 := by
  rcases hv : c.progress.value? with _ | v
  · rw [Constant.value_of_unknown hv]
    exact hr.constant_askValue _ _ (hr.constant_type c hw)
  · rwa [Constant.value_of_known hv]

/-- What no question breaks, no history breaks. -/
theorem history (accesses : List Catalog.Access) (k : Catalog) {s : σ} (hs : I s []) :
    let left := k.history r.witnessed accesses (s, [])
    I left.2.1 left.2.2 :=
  Catalog.history_keeps (J := fun _ (w : σ × List Exchange) => I w.1 w.2)
    (fun _ c _ _ hw => hr.constant_type c hw) (fun _ c _ _ hw => hr.constant_value c hw)
    accesses hs

end Resolver.Logs

/-! ### What a constant was told -/

namespace Constant

/-- What a constant was told, if nothing was known of it at first: what is known is what was
answered, and at `other` there was no second question. -/
def told (c : Constant) : List Exchange :=
  match c.subject, c.progress with
  | some e, .typed t => [.type e t]
  | some e, .settled t v => .type e t :: if t = .other then [] else [.value t e v]
  | _, _ => []

variable {r : Resolver σ} {c : Constant} {w : σ × List Exchange} {t : TypeTag}

/-- Asking for the type adds to what a constant was told what is written down. -/
theorem exists_told_type (r : Resolver σ) (c : Constant) (w : σ × List Exchange) :
    ∃ new, (c.type r.witnessed w).2.2.2 = w.2 ++ new ∧
      (c.type r.witnessed w).2.1.told = c.told ++ new := by
  cases hp : c.progress with
  | fresh =>
    unfold type askType
    rw [hp]
    cases hs : c.subject with
    | none => exact ⟨[], (List.append_nil _).symm, by simp [told, hs]⟩
    | some e =>
      refine ⟨[_], rfl, ?_⟩
      unfold told
      rw [hs, hp]
      rfl
  | typed t =>
    have ht : c.progress.type? = some t := by rw [hp]; rfl
    rw [type_of_known ht]
    exact ⟨[], by simp⟩
  | settled t v =>
    have ht : c.progress.type? = some t := by rw [hp]; rfl
    rw [type_of_known ht]
    exact ⟨[], by simp⟩

theorem exists_told_askValue (hp : c.progress = .typed t) (r : Resolver σ)
    (w : σ × List Exchange) :
    ∃ new, (c.askValue r.witnessed t w).2.2 = w.2 ++ new ∧
      told { c with progress := .settled t (c.askValue r.witnessed t w).1 } = c.told ++ new := by
  unfold askValue
  cases hs : c.subject with
  | none => exact ⟨[], (List.append_nil _).symm, by simp [told, hs]⟩
  | some e =>
    by_cases ht : t = .other
    · rw [ht] at hp ⊢
      exact ⟨[], (List.append_nil _).symm, by simp [told, hs, hp]⟩
    · simp only [Resolver.valueAt_of_ne ht]
      refine ⟨[_], rfl, ?_⟩
      unfold told
      rw [hs, hp]
      exact congrArg (Exchange.type e t :: ·) (if_neg ht)

/-- Asking for the value adds to what a constant was told what is written down. -/
theorem exists_told_value (r : Resolver σ) (c : Constant) (w : σ × List Exchange) :
    ∃ new, (c.value r.witnessed w).2.2.2 = w.2 ++ new ∧
      (c.value r.witnessed w).2.1.told = c.told ++ new := by
  rcases hv : c.progress.value? with _ | v
  · obtain ⟨new, hlog, htold⟩ := exists_told_type r c w
    obtain ⟨new', hlog', htold'⟩ :=
      exists_told_askValue (progress_type hv) r (c.type r.witnessed w).2.2
    refine ⟨new ++ new', ?_, ?_⟩
    · rw [value_of_unknown hv, ← List.append_assoc, ← hlog]
      exact hlog'
    · rw [value_of_unknown hv, ← List.append_assoc, ← htold]
      exact htold'
  · rw [value_of_known hv]
    exact ⟨[], by simp⟩

end Constant

/-! ### Conservation -/

namespace Catalog

/-- What is written down is what the constants were told, and what was written down or told
before. -/
def Conserves (before : List Exchange) (cs : List Constant) (w : σ × List Exchange) : Prop :=
  (before ++ w.2).Perm (cs.flatMap Constant.told)

theorem keeps_conserves {look : Look (σ × List Exchange) α}
    (h : ∀ c w, ∃ new, (look.run c w).2.2.2 = w.2 ++ new ∧
      (look.run c w).2.1.told = c.told ++ new) (before : List Exchange) :
    look.Keeps (Conserves before) := by
  intro left c right w hw
  obtain ⟨new, hlog, htold⟩ := h c w
  unfold Conserves at hw ⊢
  rw [hlog, List.perm_iff_count]
  intro x
  have hcount := hw.count_eq x
  simp only [List.flatMap_append, List.flatMap_cons, List.count_append, htold] at hcount ⊢
  omega

/-- **Conservation.**  The exchanges of a history are what its constants were told in it: no answer
is forgotten, so that it would be asked for again, and none is made up. -/
theorem perm_history (r : Resolver σ) (accesses : List Access) (k : Catalog) (s : σ) :
    let left := k.history r.witnessed accesses (s, [])
    (k.items.flatMap Constant.told ++ left.2.2).Perm (left.1.items.flatMap Constant.told) := by
  refine history_keeps (J := Conserves (k.items.flatMap Constant.told))
    (keeps_conserves (Constant.exists_told_type r) _)
    (keeps_conserves (Constant.exists_told_value r) _) accesses ?_
  unfold Conserves
  rw [List.append_nil]

/-- A history with a resolved report leaves no constant unknown. -/
theorem valueKnown_history (r : Resolver σ) {accesses : List Access} {format : Report.Format}
    (h : .print true format ∈ accesses) (k : Catalog) (s : σ) :
    ∀ c ∈ (k.history r accesses s).1.items, c.valueKnown = true := by
  obtain ⟨before, after, rfl⟩ := List.append_of_mem h
  rw [history_append]
  have hknown := valueKnown_report r format (k.history r before s).1 (k.history r before s).2
  -- whatever is looked at after the report changes nothing
  have hafter := history_of_known hknown r after
    ((k.history r before s).1.report r true format (k.history r before s).2).2.2
  simp only [history, Access.after]
  rw [hafter]
  exact hknown

end Catalog

end MacroConstants
