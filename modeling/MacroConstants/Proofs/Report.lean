import MacroConstants.Proofs.Catalog

/-!
# What printing changes

Printing a catalog without resolving it is meant to show what is known and to ask nothing.  JSON
does so.  Text asks for the value of every constant whose type is known and whose value is not, so
a catalog may change by being printed.

* `Constant.HalfKnown` : such a constant, `Constant.openQuestion` : what is asked about it.
* `Constant.Completed` : how text leaves a constant.
* `Catalog.report_unresolved` : what printing in either format does to any catalog, and when it does
  nothing.
-/

namespace MacroConstants

namespace Constant

variable {σ : Type}

/-- The type is known and the value is not. -/
def HalfKnown (c : Constant) : Prop := c.typeKnown = true ∧ c.valueKnown = false

/-- What is left to ask about a half-known constant: nothing without a subject or at `other`. -/
def openQuestion (c : Constant) : List Query :=
  match c.progress with
  | .typed t => if t = .other then [] else c.subject.toList.map (.value t)
  | _ => []

/-- `d` is `c` with its value settled, if just the type was known, and else it is `c`. -/
def Completed (c d : Constant) : Prop :=
  match c.progress with
  | .typed t => ∃ v, d = { c with progress := .settled t v }
  | _ => d = c

theorem halfKnown_iff {c : Constant} : c.HalfKnown ↔ ∃ t, c.progress = .typed t := by
  unfold HalfKnown typeKnown valueKnown
  cases c.progress <;> simp [Progress.type?, Progress.value?]

theorem openQuestion_eq_nil_iff {c : Constant} :
    c.openQuestion = [] ↔ (c.HalfKnown → c.subject = none ∨ c.progress = .typed .other) := by
  rw [halfKnown_iff]
  unfold openQuestion
  cases c.progress with
  | typed t => cases c.subject <;> simp
  | _ => simp

/-- Text leaves a constant as it was exactly if it is not half-known. -/
theorem Completed.eq_iff {c d : Constant} (h : c.Completed d) : d = c ↔ ¬c.HalfKnown := by
  rw [halfKnown_iff]
  unfold Completed at h
  split at h
  · rename_i t ht
    obtain ⟨v, rfl⟩ := h
    refine iff_of_false (fun he => ?_) (fun hn => hn ⟨t, ht⟩)
    have := (congrArg progress he).trans ht
    cases this
  · rename_i hne
    exact iff_of_true h fun ⟨t, ht⟩ => hne t ht

/-! ### One constant -/

/-- Without resolving, a record changes nothing. -/
theorem record_unresolved (r : Resolver σ) (c : Constant) (s : σ) :
    (c.record r false s).2 = (c, s) := by
  have ht : (c.shownType r false s).2 = (c, s) := by
    unfold shownType
    split
    · rename_i h
      obtain ⟨t, ht⟩ := Option.isSome_iff_exists.1 h
      rw [type_of_known ht]
    · rfl
  have hv : (c.shownValue r false s).2 = (c, s) := by
    unfold shownValue
    split
    · rename_i h
      obtain ⟨v, hv⟩ := Option.isSome_iff_exists.1 h
      rw [value_of_known hv]
    · rfl
  simp only [record, ht, hv]

/-- Without resolving, the row of a half-known constant asks for the value. -/
theorem row_of_typed {c : Constant} {t : TypeTag} (h : c.progress = .typed t) (r : Resolver σ)
    (s : σ) :
    (c.row r false s).2 =
      ({ c with progress := .settled t (c.askValue r t s).1 }, (c.askValue r t s).2) := by
  have ht : c.progress.type? = some t := by rw [h]; rfl
  have hv : c.progress.value? = none := by rw [h]; rfl
  have hk : c.typeKnown = true := by rw [typeKnown, ht]; rfl
  simp only [row, hk, Bool.or_true, ↓reduceIte, type_of_known ht, value_of_unknown hv]

/-- Without resolving, the row of any other constant changes nothing. -/
theorem row_of_not_typed {c : Constant} (h : ∀ t, c.progress ≠ .typed t) (r : Resolver σ)
    (s : σ) : (c.row r false s).2 = (c, s) := by
  unfold row
  split
  · rename_i hk
    cases hp : c.progress with
    | fresh => simp [typeKnown, hp, Progress.type?] at hk
    | typed t => exact absurd hp (h t)
    | settled t v =>
      have ht : c.progress.type? = some t := by rw [hp]; rfl
      have hv : c.progress.value? = some v := by rw [hp]; rfl
      simp only [type_of_known ht, value_of_known hv]
  · rfl

theorem completed_row (r : Resolver σ) (c : Constant) (s : σ) :
    c.Completed (c.row r false s).2.1 := by
  unfold Completed
  split
  · rename_i t ht
    rw [row_of_typed ht]
    exact ⟨_, rfl⟩
  · rename_i hne
    rw [row_of_not_typed hne]

theorem asked_row (r : Resolver σ) (c : Constant) (s : σ) (log : List Query) :
    (c.row r.recorded false (s, log)).2.2.2 = log ++ c.openQuestion := by
  unfold openQuestion
  split
  · rename_i t ht
    rw [row_of_typed ht]
    unfold askValue
    cases c.subject with
    | none => simp
    | some e =>
      by_cases hne : t = .other
      · simp [hne, Resolver.valueAt]
      · simp [Resolver.valueAt_of_ne hne, hne, Resolver.recorded]
  · rename_i hne
    rw [row_of_not_typed hne, List.append_nil]

end Constant

namespace Catalog

variable {σ : Type}

/-! ### The whole catalog -/

theorem report_json_unresolved (r : Resolver σ) (k : Catalog) (s : σ) :
    (k.report r false .json s).2 = (k, s) :=
  visit_snd_eq_self (Constant.recordLook r false) (fun c _ => Constant.record_unresolved r c) s

theorem completed_report_text (r : Resolver σ) (k : Catalog) (s : σ) :
    List.Forall₂ Constant.Completed k.items (k.report r false .text s).2.1.items :=
  forall₂_visitAll (Constant.rowLook r false) (Constant.completed_row r) k.items s

theorem asked_report_text (r : Resolver σ) (k : Catalog) (s : σ) (log : List Query) :
    (k.report r.recorded false .text (s, log)).2.2.2 =
      log ++ k.items.flatMap Constant.openQuestion :=
  log_visitAll (Constant.rowLook r.recorded false) (fun c s log => Constant.asked_row r c s log)
    k.items s log

theorem eq_iff_of_forall₂_completed {cs ds : List Constant}
    (h : List.Forall₂ Constant.Completed cs ds) : ds = cs ↔ ∀ c ∈ cs, ¬c.HalfKnown := by
  induction h with
  | nil => simp
  | cons hc _ ih => rw [List.cons.injEq, hc.eq_iff, ih, List.forall_mem_cons]

/-- **What printing without resolving does.**  JSON changes nothing and asks nothing.  Text settles
the half-known constants, for which it puts their open questions in order; so it leaves the catalog
as it was exactly if no constant is half-known, and asks nothing exactly if every half-known
constant has no subject or is `other`. -/
theorem report_unresolved (r : Resolver σ) (k : Catalog) (s : σ) (log : List Query) :
    let json := (k.report r.recorded false .json (s, log)).2
    let text := (k.report r.recorded false .text (s, log)).2
    json = (k, s, log) ∧
    List.Forall₂ Constant.Completed k.items text.1.items ∧
    text.2.2 = log ++ k.items.flatMap Constant.openQuestion ∧
    (text.1 = k ↔ ∀ c ∈ k.items, ¬c.HalfKnown) ∧
    (text.2.2 = log ↔
      ∀ c ∈ k.items, c.HalfKnown → c.subject = none ∨ c.progress = .typed .other) := by
  intro json text
  have hc := completed_report_text r.recorded k (s, log)
  have ha := asked_report_text r k s log
  refine ⟨report_json_unresolved r.recorded k (s, log), hc, ha, ?_, ?_⟩
  · rw [← eq_iff_of_forall₂_completed hc]
    exact ⟨congrArg items, Catalog.ext⟩
  · rw [ha, List.append_right_eq_self, List.flatMap_eq_nil_iff]
    exact forall₂_congr fun c _ => Constant.openQuestion_eq_nil_iff

/-- A sum whose type was asked for is asked about again when it is printed as text. -/
theorem report_text_asks_sum :
    let r : Resolver Unit := Answers.resolver { types := [(bytes "SUM", .int)] }
    let sum := Constant.Origin.named (bytes "SUM") (some (bytes "(1+2)")) true
    let k := ((Catalog.add {} sum.constant).1.visitNamed (typeLook r) (bytes "SUM") ()).2.1
    let text := (k.report r.recorded false .text ((), [])).2
    k.Reachable r ∧ text.2.2 = [.value .int (bytes "SUM")] ∧ text.1 ≠ k := by
  intro r sum k text
  refine ⟨.typeAsked _ _ (.added .empty trivial), by decide, fun h => ?_⟩
  have hi : text.1.items = k.items := congrArg items h
  exact absurd hi (by decide)

end Catalog

end MacroConstants
