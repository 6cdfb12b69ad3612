import MacroConstants.Discovery
import MacroConstants.Proofs.Constant
import MacroConstants.Report

/-!
# What a catalog can become

A look at a catalog goes from constant to constant, so what it does to the catalog follows from what
it does to one constant.

* `Catalog.find?_eq_some_iff` : looking a name up finds the one constant that has it.
* `Catalog.visit_snd_eq_self`, `Catalog.forall₂_visitAll`, `Catalog.log_visitAll` : from one
  constant to all of them.
* `Constant.Origin.Faithful` : a constant is given a value only if that is what its text says.
* `Catalog.Reachable` : the catalogs that discovering, adding, asking and printing lead to.
-/

namespace MacroConstants

namespace Catalog

variable {σ α β : Type}

@[ext] theorem ext {k l : Catalog} (h : k.items = l.items) : k = l := by
  cases k
  cases l
  congr

/-! ### Looking up -/

/-- A name is looked up to the one constant that has it. -/
theorem find?_eq_some_iff {k : Catalog} {name : Bytes} {c : Constant} :
    k.find? name = some c ↔ c ∈ k.items ∧ c.name = name := by
  unfold find?
  constructor
  · intro h
    exact ⟨List.mem_of_find?_eq_some h, by simpa using List.find?_some h⟩
  · rintro ⟨hc, rfl⟩
    obtain ⟨before, after, hitems⟩ := List.append_of_mem hc
    -- the constants before it have other names
    have hdistinct := k.distinct
    rw [hitems, List.map_append, List.map_cons, List.nodup_append] at hdistinct
    refine List.find?_eq_some_iff_append.2
      ⟨beq_self_eq_true _, before, after, hitems, fun b hb => ?_⟩
    have hne : b.name ≠ c.name :=
      hdistinct.2.2 b.name (List.mem_map_of_mem hb) c.name List.mem_cons_self
    simpa using hne

/-- What is looked up does not depend on the order of the constants. -/
theorem find?_eq_of_perm {k k' : Catalog} (h : k'.items.Perm k.items) (name : Bytes) :
    k'.find? name = k.find? name :=
  Option.ext fun c => by rw [find?_eq_some_iff, find?_eq_some_iff, h.mem_iff]

/-! ### From one constant to all of them -/

theorem visitAll_cons_snd (look : Look σ α) (c : Constant) (cs : List Constant) (s : σ) :
    (visitAll look (c :: cs) s).2 =
      ((look.run c s).2.1 :: (visitAll look cs (look.run c s).2.2).2.1,
        (visitAll look cs (look.run c s).2.2).2.2) := rfl

/-- A look that changes nothing at any constant of a list changes nothing at all. -/
theorem visitAll_snd_eq_self (look : Look σ α) {cs : List Constant}
    (h : ∀ c ∈ cs, ∀ s, (look.run c s).2 = (c, s)) (s : σ) : (visitAll look cs s).2 = (cs, s) := by
  induction cs generalizing s with
  | nil => rfl
  | cons c cs ih =>
    rw [List.forall_mem_cons] at h
    rw [visitAll_cons_snd, h.1 s, ih h.2 s]

theorem visitFirst_snd_eq_self (look : Look σ α) {cs : List Constant}
    (h : ∀ c ∈ cs, ∀ s, (look.run c s).2 = (c, s)) (name : Bytes) (s : σ) :
    (visitFirst look name cs s).2 = (cs, s) := by
  induction cs generalizing s with
  | nil => rfl
  | cons c cs ih =>
    rw [List.forall_mem_cons] at h
    unfold visitFirst
    split
    · simp only [h.1 s]
    · simp only [ih h.2 s]

theorem visit_snd_eq_self (look : Look σ α) {k : Catalog}
    (h : ∀ c ∈ k.items, ∀ s, (look.run c s).2 = (c, s)) (s : σ) : (k.visit look s).2 = (k, s) := by
  have hall := visitAll_snd_eq_self look h s
  have hk : (k.visit look s).2.1.items = k.items := congrArg Prod.fst hall
  have hs : (k.visit look s).2.2 = s := congrArg Prod.snd hall
  exact Prod.ext (Catalog.ext hk) hs

theorem visitNamed_snd_eq_self (look : Look σ α) {k : Catalog}
    (h : ∀ c ∈ k.items, ∀ s, (look.run c s).2 = (c, s)) (name : Bytes) (s : σ) :
    (k.visitNamed look name s).2 = (k, s) := by
  have hfirst := visitFirst_snd_eq_self look h name s
  have hk : (k.visitNamed look name s).2.1.items = k.items := congrArg Prod.fst hfirst
  have hs : (k.visitNamed look name s).2.2 = s := congrArg Prod.snd hfirst
  exact Prod.ext (Catalog.ext hk) hs

/-- What holds of every constant before and after it is looked at holds along the list. -/
theorem forall₂_visitAll (look : Look σ α) {R : Constant → Constant → Prop}
    (h : ∀ c s, R c (look.run c s).2.1) (cs : List Constant) (s : σ) :
    List.Forall₂ R cs (visitAll look cs s).2.1 := by
  induction cs generalizing s with
  | nil => exact .nil
  | cons c cs ih => exact .cons (h c s) (ih _)

/-- What a look appends to a list at every constant it appends in order. -/
theorem log_visitAll (look : Look (σ × List β) α) {asks : Constant → List β}
    (h : ∀ c s log, (look.run c (s, log)).2.2.2 = log ++ asks c) (cs : List Constant) (s : σ)
    (log : List β) : (visitAll look cs (s, log)).2.2.2 = log ++ cs.flatMap asks := by
  induction cs generalizing s log with
  | nil => simp [visitAll]
  | cons c cs ih =>
    have hc : (look.run c (s, log)).2.2 = ((look.run c (s, log)).2.2.1, log ++ asks c) :=
      Prod.ext rfl (h c s log)
    rw [visitAll_cons_snd, hc, ih, List.flatMap_cons, List.append_assoc]

variable (look : Look σ α) {P : Constant → Prop}

/-- What a look keeps of every constant it keeps of all of them. -/
theorem forall_visitAll (h : ∀ c s, P c → P (look.run c s).2.1) {cs : List Constant} {s : σ}
    (hcs : ∀ c ∈ cs, P c) : ∀ c ∈ (visitAll look cs s).2.1, P c := by
  induction cs generalizing s with
  | nil => exact hcs
  | cons c cs ih =>
    rw [List.forall_mem_cons] at hcs
    exact List.forall_mem_cons.2 ⟨h c s hcs.1, ih hcs.2⟩

theorem forall_visitFirst (h : ∀ c s, P c → P (look.run c s).2.1) {name : Bytes}
    {cs : List Constant} {s : σ} (hcs : ∀ c ∈ cs, P c) :
    ∀ c ∈ (visitFirst look name cs s).2.1, P c := by
  induction cs generalizing s with
  | nil => exact hcs
  | cons c cs ih =>
    rw [List.forall_mem_cons] at hcs
    unfold visitFirst
    split
    · exact List.forall_mem_cons.2 ⟨h c s hcs.1, hcs.2⟩
    · exact List.forall_mem_cons.2 ⟨hcs.1, ih hcs.2⟩

/-- What is seen at every constant is seen at all of them. -/
theorem forall_seen_visitAll {Q : α → Prop} (h : ∀ c s, P c → Q (look.run c s).1)
    {cs : List Constant} {s : σ} (hcs : ∀ c ∈ cs, P c) : ∀ a ∈ (visitAll look cs s).1, Q a := by
  induction cs generalizing s with
  | nil => simp [visitAll]
  | cons c cs ih =>
    rw [List.forall_mem_cons] at hcs
    exact List.forall_mem_cons.2 ⟨h c s hcs.1, ih hcs.2⟩

theorem length_seen_visitAll (cs : List Constant) (s : σ) :
    (visitAll look cs s).1.length = cs.length := by
  induction cs generalizing s with
  | nil => rfl
  | cons c cs ih => exact congrArg (· + 1) (ih _)

theorem forall_add {k : Catalog} {c : Constant} (hk : ∀ d ∈ k.items, P d) (hc : P c) :
    ∀ d ∈ (k.add c).1.items, P d := by
  unfold add
  split
  · exact hk
  · simpa [or_imp, forall_and] using ⟨hk, hc⟩

/-! ### Histories -/

/-- Asking for the type of a constant. -/
def typeLook (r : Resolver σ) : Look σ TypeTag where
  run c s := c.type r s
  keeps := Constant.name_type r

/-- Asking for the value of a constant. -/
def valueLook (r : Resolver σ) : Look σ (Option Value) where
  run c s := c.value r s
  keeps := Constant.name_value r

end Catalog

/-- What a constant is given, if anything, is what its text says. -/
def Constant.Origin.Faithful : Origin → Prop
  | .classified _ raw type value => Literal.read? raw = some value ∧ type = value.type
  | _ => True

/-- A value that a new constant has is the one that its text says, and it has the type of it. -/
theorem Constant.Origin.Faithful.literal {o : Origin} (h : o.Faithful) {v : Value}
    (hv : o.constant.progress.value? = some (some v)) :
    o.constant.progress.type? = some v.type ∧ ∃ raw, Literal.read? raw = some v := by
  cases o with
  | named => cases hv
  | classified name raw t value =>
    obtain rfl : value = v := Option.some.inj (Option.some.inj hv)
    exact ⟨congrArg some h.2, raw, h.1⟩
  | expression text asserted asks =>
    rcases asserted with _ | t
    · cases hv
    -- only at `other` is the value known, and then it is missing
    · cases t <;> cases hv

/-- The catalogs that can be reached: a catalog is discovered or built up, and between any two steps
whoever is asked may have come into any state. -/
inductive Catalog.Reachable {σ : Type} (r : Resolver σ) : Catalog → Prop
  | empty : Reachable r {}
  | discovered (keep : Selector) (text : Bytes) : Reachable r (Discovery.ofDump keep text).1
  | added {k : Catalog} {o : Constant.Origin} :
      Reachable r k → o.Faithful → Reachable r (k.add o.constant).1
  | typeAsked {k : Catalog} (name : Bytes) (s : σ) :
      Reachable r k → Reachable r (k.visitNamed (typeLook r) name s).2.1
  | valueAsked {k : Catalog} (name : Bytes) (s : σ) :
      Reachable r k → Reachable r (k.visitNamed (valueLook r) name s).2.1
  | printed {k : Catalog} (resolve : Bool) (format : Report.Format) (s : σ) :
      Reachable r k → Reachable r (k.report r resolve format s).2.1

namespace Constant

variable {σ : Type} {r : Resolver σ} {resolve : Bool} {P : Constant → Prop} {c : Constant} {s : σ}

theorem row_keeps (htype : ∀ c s, P c → P (c.type r s).2.1)
    (hvalue : ∀ c s, P c → P (c.value r s).2.1) (hc : P c) : P (c.row r resolve s).2.1 := by
  unfold row
  split
  · exact hvalue _ _ (htype c s hc)
  · exact hc

theorem shownType_keeps (htype : ∀ c s, P c → P (c.type r s).2.1) (hc : P c) :
    P (c.shownType r resolve s).2.1 := by
  unfold shownType
  split
  · exact htype c s hc
  · exact hc

theorem shownValue_keeps (hvalue : ∀ c s, P c → P (c.value r s).2.1) (hc : P c) :
    P (c.shownValue r resolve s).2.1 := by
  unfold shownValue
  split
  · exact hvalue c s hc
  · exact hc

theorem record_keeps (htype : ∀ c s, P c → P (c.type r s).2.1)
    (hvalue : ∀ c s, P c → P (c.value r s).2.1) (hc : P c) : P (c.record r resolve s).2.1 :=
  shownValue_keeps hvalue (shownType_keeps htype hc)

end Constant

namespace Definition

/-- A definition is a literal, or a macro to ask about. -/
def origin (d : Definition) : Constant.Origin :=
  match Literal.read? d.text with
  | some value => .classified d.name d.text value.type value
  | none => .named d.name (some d.text) true

theorem constant_origin (d : Definition) : d.origin.constant = d.constant := by
  unfold origin constant
  cases Literal.read? d.text <;> rfl

theorem faithful_origin (d : Definition) : d.origin.Faithful := by
  unfold origin
  split
  · rename_i h
    exact ⟨h, rfl⟩
  · trivial

end Definition

namespace Catalog

variable {σ : Type} {r : Resolver σ} {P : Constant → Prop}

theorem forall_addDefinitions (hnew : ∀ o : Constant.Origin, o.Faithful → P o.constant)
    {ds : List Definition} {k : Catalog} (hk : ∀ c ∈ k.items, P c) :
    ∀ c ∈ (addDefinitions ds k).1.items, P c := by
  induction ds generalizing k with
  | nil => exact hk
  | cons d ds ih =>
    exact ih (forall_add hk (d.constant_origin ▸ hnew d.origin d.faithful_origin))

/-- **What new constants have and asking keeps, all constants of a reachable catalog have.** -/
theorem Reachable.forall_items {k : Catalog} (hk : k.Reachable r)
    (hnew : ∀ o : Constant.Origin, o.Faithful → P o.constant)
    (htype : ∀ c s, P c → P (c.type r s).2.1) (hvalue : ∀ c s, P c → P (c.value r s).2.1) :
    ∀ c ∈ k.items, P c := by
  induction hk with
  | empty => simp
  | discovered keep text => exact forall_addDefinitions hnew (k := {}) (by simp)
  | added _ ho ih => exact forall_add ih (hnew _ ho)
  | typeAsked name s _ ih => exact forall_visitFirst (typeLook r) htype ih
  | valueAsked name s _ ih => exact forall_visitFirst (valueLook r) hvalue ih
  | printed resolve format s _ ih =>
    cases format with
    | text =>
      exact forall_visitAll (Constant.rowLook r resolve)
        (fun _ _ => Constant.row_keeps htype hvalue) ih
    | json =>
      exact forall_visitAll (Constant.recordLook r resolve)
        (fun _ _ => Constant.record_keeps htype hvalue) ih

end Catalog

end MacroConstants
