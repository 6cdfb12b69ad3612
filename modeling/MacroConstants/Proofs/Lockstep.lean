import MacroConstants.Proofs.History

/-!
# Two resolvers in lockstep

Two resolvers that give the same answers in states that belong together, and stay in such states,
cannot be told apart by a catalog: whatever is looked at, in whatever order, the same is seen and
the same becomes known.  The two may have states of different kinds.

* `Resolver.LockstepOn`, `Resolver.Lockstep` : the same answers about some expressions, or about
  all, and states that still belong together.
* `Together` : two looks that see the same, leave the same and lead to states that belong together.
* `Constant.type_together`, `Constant.value_together` : one constant.
* `Catalog.Access.look`, `Catalog.look_together` : a look at a catalog.
* `Catalog.history_together` : **any history.**
-/

namespace MacroConstants

variable {σ τ α β : Type} {Q : σ → τ → Prop}

/-- In states that belong together the two give the same answers about the expressions of `P`, and
the states they then are in belong together again.  No question is put at `other`. -/
structure Resolver.LockstepOn (P : Bytes → Prop) (Q : σ → τ → Prop) (r : Resolver σ)
    (r' : Resolver τ) : Prop where
  type : ∀ e s t, P e → Q s t →
    (r.type e s).1 = (r'.type e t).1 ∧ Q (r.type e s).2 (r'.type e t).2
  value : ∀ type e s t, type ≠ .other → P e → Q s t →
    (r.value type e s).1 = (r'.value type e t).1 ∧ Q (r.value type e s).2 (r'.value type e t).2

/-- The same about all expressions. -/
abbrev Resolver.Lockstep (Q : σ → τ → Prop) (r : Resolver σ) (r' : Resolver τ) : Prop :=
  r.LockstepOn (fun _ => True) Q r'

/-- Two results with the same answer and the same rest, in states that belong together. -/
structure Together (Q : σ → τ → Prop) (x : α × β × σ) (y : α × β × τ) : Prop where
  answer : x.1 = y.1
  rest : x.2.1 = y.2.1
  state : Q x.2.2 y.2.2

variable {r : Resolver σ} {r' : Resolver τ} {s : σ} {t : τ}

/-! ### One constant -/

namespace Constant

variable {P : Bytes → Prop} {c : Constant}

/-- If anyone is asked about the constant, it is about an expression of `P`. -/
def Asks (P : Bytes → Prop) (c : Constant) : Prop := ∀ e, c.subject = some e → P e

theorem asks_all (c : Constant) : c.Asks fun _ => True := fun _ _ => trivial

theorem Asks.type (hc : c.Asks P) : (c.type r s).2.1.Asks P := by
  unfold Asks
  rwa [subject_type]

section Asking

variable (h : r.LockstepOn P Q r') (hc : c.Asks P) (hst : Q s t)
include h hc hst

theorem type_together : Together Q (c.type r s) (c.type r' t) := by
  unfold type askType
  cases c.progress with
  | fresh =>
    cases hs : c.subject with
    | none => exact ⟨rfl, rfl, hst⟩
    | some e =>
      obtain ⟨hanswer, hstate⟩ := h.type e s t (hc e hs) hst
      exact ⟨hanswer, by simp only [hanswer], hstate⟩
  | typed type => exact ⟨rfl, rfl, hst⟩
  | settled type v => exact ⟨rfl, rfl, hst⟩

theorem askValue_together (type : TypeTag) :
    (c.askValue r type s).1 = (c.askValue r' type t).1 ∧
      Q (c.askValue r type s).2 (c.askValue r' type t).2 := by
  unfold askValue
  cases hs : c.subject with
  | none => exact ⟨rfl, hst⟩
  | some e =>
    by_cases hother : type = .other
    · rw [hother]
      exact ⟨rfl, hst⟩
    · simp only [Resolver.valueAt_of_ne hother]
      exact h.value type e s t hother (hc e hs) hst

theorem value_together : Together Q (c.value r s) (c.value r' t) := by
  rcases hv : c.progress.value? with _ | v
  · rw [value_of_unknown hv, value_of_unknown hv]
    obtain ⟨htype, hleft, hstate⟩ := type_together h hc hst
    dsimp only
    rw [htype, hleft]
    obtain ⟨hanswer, hstate'⟩ :=
      askValue_together h hc.type hstate (c.type r' t).1
    exact ⟨hanswer, by simp only [hanswer], hstate'⟩
  · rw [value_of_known hv, value_of_known hv]
    exact ⟨rfl, rfl, hst⟩

variable (resolve : Bool)

theorem row_together : Together Q (c.row r resolve s) (c.row r' resolve t) := by
  unfold row
  split
  · obtain ⟨htype, hleft, hstate⟩ := type_together h hc hst
    have hvalue := value_together h (hc.type (r := r') (s := t)) hstate
    dsimp only
    rw [htype, hleft]
    exact ⟨by simp only [hvalue.answer, hvalue.rest], hvalue.rest, hvalue.state⟩
  · exact ⟨rfl, rfl, hst⟩

theorem shownType_together : Together Q (c.shownType r resolve s) (c.shownType r' resolve t) := by
  unfold shownType
  split
  · obtain ⟨htype, hleft, hstate⟩ := type_together h hc hst
    exact ⟨congrArg some htype, hleft, hstate⟩
  · exact ⟨rfl, rfl, hst⟩

theorem shownValue_together :
    Together Q (c.shownValue r resolve s) (c.shownValue r' resolve t) := by
  unfold shownValue
  split
  · exact value_together h hc hst
  · exact ⟨rfl, rfl, hst⟩

theorem record_together : Together Q (c.record r resolve s) (c.record r' resolve t) := by
  obtain ⟨htype, hleft, hstate⟩ := shownType_together h hc hst resolve
  have hshown : (c.shownType r' resolve t).2.1.Asks P :=
    shownType_keeps (fun _ _ hc => hc.type) hc
  have hvalue := shownValue_together h hshown hstate resolve
  unfold record
  dsimp only
  rw [htype, hleft]
  exact ⟨by simp only [hvalue.answer, hvalue.rest], hvalue.rest, hvalue.state⟩

end Asking

end Constant

/-! ### Catalogs -/

namespace Catalog

/-- What is seen at a look: a type or a value, if there is a constant of the name, or what is
printed. -/
inductive Answer where
  | type (type : Option TypeTag)
  | value (value : Option (Option Value))
  | printed (text : Bytes)

/-- A look with what is seen. -/
def Access.look (r : Resolver σ) : Access → Catalog → σ → Answer × Catalog × σ
  | .type name, k, s =>
    let (answer, left) := k.visitNamed (typeLook r) name s
    (.type answer, left)
  | .value name, k, s =>
    let (answer, left) := k.visitNamed (valueLook r) name s
    (.value answer, left)
  | .print resolve format, k, s =>
    let (text, left) := k.report r resolve format s
    (.printed text, left)

theorem Access.look_snd (r : Resolver σ) (access : Access) (k : Catalog) (s : σ) :
    (access.look r k s).2 = access.after r k s := by
  cases access <;> rfl

section Looks

variable {look : Look σ α} {look' : Look τ α}
  (h : ∀ c s t, Q s t → Together Q (look.run c s) (look'.run c t))
include h

theorem visitAll_together (cs : List Constant) (hst : Q s t) :
    Together Q (visitAll look cs s) (visitAll look' cs t) := by
  induction cs generalizing s t with
  | nil => exact ⟨rfl, rfl, hst⟩
  | cons c cs ih =>
    have hc := h c s t hst
    have hcs := ih hc.state
    exact ⟨congrArg₂ List.cons hc.answer hcs.answer, congrArg₂ List.cons hc.rest hcs.rest,
      hcs.state⟩

theorem visitFirst_together (name : Bytes) (cs : List Constant) (hst : Q s t) :
    Together Q (visitFirst look name cs s) (visitFirst look' name cs t) := by
  induction cs generalizing s t with
  | nil => exact ⟨rfl, rfl, hst⟩
  | cons c cs ih =>
    unfold visitFirst
    split
    · have hc := h c s t hst
      exact ⟨congrArg some hc.answer, congrArg (· :: cs) hc.rest, hc.state⟩
    · have hcs := ih hst
      exact ⟨hcs.answer, congrArg (c :: ·) hcs.rest, hcs.state⟩

theorem visit_together (k : Catalog) (hst : Q s t) :
    Together Q (k.visit look s) (k.visit look' t) := by
  obtain ⟨hanswer, hrest, hstate⟩ := visitAll_together h k.items hst
  exact ⟨hanswer, Catalog.ext hrest, hstate⟩

theorem visitNamed_together (name : Bytes) (k : Catalog) (hst : Q s t) :
    Together Q (k.visitNamed look name s) (k.visitNamed look' name t) := by
  obtain ⟨hanswer, hrest, hstate⟩ := visitFirst_together h name k.items hst
  exact ⟨hanswer, Catalog.ext hrest, hstate⟩

end Looks

variable (h : r.Lockstep Q r')
include h

theorem report_together (resolve : Bool) (format : Report.Format) (k : Catalog) (hst : Q s t) :
    Together Q (k.report r resolve format s) (k.report r' resolve format t) := by
  cases format with
  | text =>
    have hlook : ∀ c s t, Q s t → Together Q ((Constant.rowLook r resolve).run c s)
        ((Constant.rowLook r' resolve).run c t) :=
      fun c _ _ hst => Constant.row_together h c.asks_all hst resolve
    obtain ⟨hanswer, hrest, hstate⟩ := visit_together hlook k hst
    exact ⟨congrArg (List.flatMap Report.Row.render) hanswer, hrest, hstate⟩
  | json =>
    have hlook : ∀ c s t, Q s t → Together Q ((Constant.recordLook r resolve).run c s)
        ((Constant.recordLook r' resolve).run c t) :=
      fun c _ _ hst => Constant.record_together h c.asks_all hst resolve
    obtain ⟨hanswer, hrest, hstate⟩ := visit_together hlook k hst
    have hdocument := congrArg (fun rs : List _ => Json.document (rs.map Report.Record.members))
      hanswer
    exact ⟨hdocument, hrest, hstate⟩

theorem type_together (name : Bytes) (k : Catalog) (hst : Q s t) :
    Together Q (k.visitNamed (typeLook r) name s) (k.visitNamed (typeLook r') name t) :=
  visitNamed_together (fun c _ _ hst => Constant.type_together h c.asks_all hst) name k hst

theorem value_together (name : Bytes) (k : Catalog) (hst : Q s t) :
    Together Q (k.visitNamed (valueLook r) name s) (k.visitNamed (valueLook r') name t) :=
  visitNamed_together (fun c _ _ hst => Constant.value_together h c.asks_all hst) name k hst

/-- The same is seen at any look. -/
theorem look_together (access : Access) (k : Catalog) (hst : Q s t) :
    Together Q (access.look r k s) (access.look r' k t) := by
  cases access with
  | type name =>
    obtain ⟨hanswer, hrest, hstate⟩ := type_together h name k hst
    exact ⟨congrArg Answer.type hanswer, hrest, hstate⟩
  | value name =>
    obtain ⟨hanswer, hrest, hstate⟩ := value_together h name k hst
    exact ⟨congrArg Answer.value hanswer, hrest, hstate⟩
  | print resolve format =>
    obtain ⟨hanswer, hrest, hstate⟩ := report_together h resolve format k hst
    exact ⟨congrArg Answer.printed hanswer, hrest, hstate⟩

/-- **Any history leaves the same catalog, in states that belong together.** -/
theorem history_together (accesses : List Access) (k : Catalog) (hst : Q s t) :
    (k.history r accesses s).1 = (k.history r' accesses t).1 ∧
      Q (k.history r accesses s).2 (k.history r' accesses t).2 := by
  induction accesses generalizing k s t with
  | nil => exact ⟨rfl, hst⟩
  | cons access rest ih =>
    obtain ⟨-, hcatalog, hstate⟩ := look_together h access k hst
    rw [Access.look_snd, Access.look_snd] at hcatalog hstate
    unfold history
    dsimp only
    rw [hcatalog]
    exact ih _ hstate

end Catalog

end MacroConstants
