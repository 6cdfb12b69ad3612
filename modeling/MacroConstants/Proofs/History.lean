import MacroConstants.Proofs.Report

/-!
# Histories of a catalog

After it is made a catalog is looked at: the type or the value of a constant is asked for, or all
constants are printed.  A look may settle constants, so the next one may find more known.

* `Catalog.Access`, `Catalog.history` : one look, and looks in order.
* `Catalog.map_history` : what asking for its type or its value keeps of a constant, a history keeps
  of all of them.
* `Constant.knownRow`, `Constant.knownRecord` : what is known of a constant, as a row and as a
  record.
* `Catalog.report_eq_shown` : **what is printed is what is known afterwards.**
-/

namespace MacroConstants

namespace Catalog

variable {σ α β : Type}

/-! ### Looks in order -/

/-- A look at a catalog. -/
inductive Access where
  | type (name : Bytes)
  | value (name : Bytes)
  | print (resolve : Bool) (format : Report.Format)
  deriving DecidableEq

/-- What a look leaves of the catalog and of the resolver's state. -/
def Access.after (r : Resolver σ) : Access → Catalog → σ → Catalog × σ
  | type name, k, s => (k.visitNamed (typeLook r) name s).2
  | value name, k, s => (k.visitNamed (valueLook r) name s).2
  | print resolve format, k, s => (k.report r resolve format s).2

/-- What looks in order leave. -/
def history (r : Resolver σ) : List Access → Catalog → σ → Catalog × σ
  | [], k, s => (k, s)
  | access :: rest, k, s =>
    let (k, s) := access.after r k s
    history r rest k s

section Lifting

variable {r : Resolver σ} {f g : Constant → β}

theorem map_visitAll (look : Look σ α) (h : ∀ c s, f (look.run c s).2.1 = g c)
    (cs : List Constant) (s : σ) : (visitAll look cs s).2.1.map f = cs.map g := by
  induction cs generalizing s with
  | nil => rfl
  | cons c cs ih => exact congrArg₂ List.cons (h c s) (ih _)

theorem map_visitFirst (look : Look σ α) (h : ∀ c s, f (look.run c s).2.1 = f c) (name : Bytes)
    (cs : List Constant) (s : σ) : (visitFirst look name cs s).2.1.map f = cs.map f := by
  induction cs generalizing s with
  | nil => rfl
  | cons c cs ih =>
    unfold visitFirst
    split
    · exact congrArg (· :: cs.map f) (h c s)
    · exact congrArg (f c :: ·) (ih s)

variable (htype : ∀ c s, f (c.type r s).2.1 = f c) (hvalue : ∀ c s, f (c.value r s).2.1 = f c)
include htype hvalue

theorem map_access (access : Access) (k : Catalog) (s : σ) :
    (access.after r k s).1.items.map f = k.items.map f := by
  -- the value for a print is asked of what asking for the type left
  have htype' : ∀ c d s, f d = f c → f (d.type r s).2.1 = f c :=
    fun c d s h => (htype d s).trans h
  have hvalue' : ∀ c d s, f d = f c → f (d.value r s).2.1 = f c :=
    fun c d s h => (hvalue d s).trans h
  cases access with
  | type name => exact map_visitFirst (typeLook r) htype name k.items s
  | value name => exact map_visitFirst (valueLook r) hvalue name k.items s
  | print resolve format =>
    cases format with
    | text =>
      refine map_visitAll (Constant.rowLook r resolve) (fun c s => ?_) k.items s
      exact Constant.row_keeps (P := fun d => f d = f c) (htype' c) (hvalue' c) rfl
    | json =>
      refine map_visitAll (Constant.recordLook r resolve) (fun c s => ?_) k.items s
      exact Constant.record_keeps (P := fun d => f d = f c) (htype' c) (hvalue' c) rfl

/-- **What asking keeps of a constant, a history keeps of all of them.** -/
theorem map_history (accesses : List Access) (k : Catalog) (s : σ) :
    (k.history r accesses s).1.items.map f = k.items.map f := by
  induction accesses generalizing k s with
  | nil => rfl
  | cons access rest ih => exact (ih _ _).trans (map_access htype hvalue access k s)

end Lifting

end Catalog

/-! ### What is known -/

namespace Constant

/-- The row of what is known of a constant. -/
def knownRow (c : Constant) : Report.Row :=
  match c.progress.type? with
  | some t => ⟨c.name, some t, (c.progress.value?.join.map Value.render).getD []⟩
  | none => ⟨c.name, none, c.raw.getD []⟩

/-- The record of what is known of a constant. -/
def knownRecord (c : Constant) : Report.Record :=
  ⟨c.name, c.raw, c.progress.type?, c.progress.value?.join⟩

variable {σ : Type} (r : Resolver σ) (resolve : Bool) (c : Constant) (s : σ)

@[simp] theorem raw_type : (c.type r s).2.1.raw = c.raw := by
  unfold type
  split <;> rfl

@[simp] theorem raw_value : (c.value r s).2.1.raw = c.raw := by
  unfold value
  split
  · rfl
  · exact raw_type r c s

/-- A row shows what is known after it was made. -/
theorem row_eq_knownRow : (c.row r resolve s).1 = (c.row r resolve s).2.1.knownRow := by
  unfold row
  split
  · have ht := type?_value (r := r) (s := (c.type r s).2.2) (type?_type r c s)
    have hv := value?_value r (c.type r s).2.1 (c.type r s).2.2
    simp [knownRow, ht, hv]
  · rename_i h
    rw [Bool.or_eq_true, not_or] at h
    have ht : c.progress.type? = none := Option.not_isSome_iff_eq_none.1 h.2
    simp [knownRow, ht]

/-- A record shows what is known after it was made. -/
theorem record_eq_knownRecord :
    (c.record r resolve s).1 = (c.record r resolve s).2.1.knownRecord := by
  cases resolve with
  | true =>
    have ht := type?_value (r := r) (s := (c.type r s).2.2) (type?_type r c s)
    have hv := value?_value r (c.type r s).2.1 (c.type r s).2.2
    simp [record, shownType, shownValue, knownRecord, ht, hv]
  | false =>
    -- nothing changes, so only what is known already can be shown
    rw [record_unresolved r c s]
    cases hp : c.progress <;>
      simp [record, shownType, shownValue, knownRecord, typeKnown, valueKnown, type, value, hp,
        Progress.type?, Progress.value?]

end Constant

namespace Catalog

/-- The text that shows what is known of a catalog. -/
def shown (format : Report.Format) (k : Catalog) : Bytes :=
  match format with
  | .text => (k.items.map Constant.knownRow).flatMap Report.Row.render
  | .json => Json.document ((k.items.map Constant.knownRecord).map Report.Record.members)

variable {σ α : Type}

/-- What is seen at every constant, if it can be read off what is left of it. -/
theorem seen_visitAll (look : Look σ α) {f : Constant → α}
    (h : ∀ c s, (look.run c s).1 = f (look.run c s).2.1) (cs : List Constant) (s : σ) :
    (visitAll look cs s).1 = (visitAll look cs s).2.1.map f := by
  induction cs generalizing s with
  | nil => rfl
  | cons c cs ih => exact congrArg₂ List.cons (h c s) (ih _)

variable (r : Resolver σ) (resolve : Bool) (k : Catalog) (s : σ)

theorem rows_eq_knownRows :
    (k.rows r resolve s).1 = (k.rows r resolve s).2.1.items.map Constant.knownRow :=
  seen_visitAll _ (Constant.row_eq_knownRow r resolve) k.items s

theorem records_eq_knownRecords :
    (k.records r resolve s).1 = (k.records r resolve s).2.1.items.map Constant.knownRecord :=
  seen_visitAll _ (Constant.record_eq_knownRecord r resolve) k.items s

/-- **What is printed is what is known afterwards.** -/
theorem report_eq_shown (format : Report.Format) :
    (k.report r resolve format s).1 = (k.report r resolve format s).2.1.shown format := by
  cases format with
  | text => exact congrArg (List.flatMap Report.Row.render) (rows_eq_knownRows r resolve k s)
  | json =>
    exact congrArg (fun rs => Json.document (rs.map Report.Record.members))
      (records_eq_knownRecords r resolve k s)

end Catalog

end MacroConstants
