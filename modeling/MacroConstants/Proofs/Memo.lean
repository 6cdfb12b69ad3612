import MacroConstants.Proofs.Coherence

/-!
# What a constant keeps

`Progress` cannot say that a value was asked for while the type is unknown, or that a value is kept
that nobody asked for.  A constant that keeps its answers in three members, each written on its own,
could be left in such a state.  Here the members are kept apart, and it is proved of each way to
make a constant and of each question that they agree; so the members say what `Progress` says, and
every sequence of calls is answered alike.

* `Memo` : a constant that keeps the type, whether the value was asked for, and the value.
* `Memo.ofOrigin`, `Memo.type`, `Memo.value` : what writes the members.
* `Memo.Ordered` : **the invariant** of the members, whoever is asked.
* `Memo.constant`, `Memo.calls_constant` : **the simulation**, a memo answers every sequence of
  calls as the constant that it stands for.
* `Memo.Coherent`, `Catalog.exists_memo_of_reachable` : where values have the type that was asked
  about, the members of every constant of a catalog fit together.
-/

namespace MacroConstants

/-- A constant whose members are written one at a time. -/
structure Memo where
  name : Bytes
  /-- The text the constant was written with. -/
  raw : Option Bytes
  /-- Whether there is somebody to ask. -/
  asks : Bool
  /-- Whether questions are about the text, not about the name. -/
  isExpression : Bool := false
  /-- The type, once it is known. -/
  keptType : Option TypeTag := none
  /-- Whether the value was asked for or needs no asking. -/
  valueAsked : Bool := false
  /-- The value, if it was had. -/
  keptValue : Option Value := none
  deriving DecidableEq, Repr

namespace Memo

/-- The memo of a new constant.  An expression has its text for a name, and asserted to be `other`
it has no value that could be asked for. -/
def ofOrigin : Constant.Origin → Memo
  | .named name raw asks => { name, raw, asks }
  | .classified name raw type value =>
    { name, raw := some raw, asks := false, keptType := some type, valueAsked := true,
      keptValue := some value }
  | .expression text asserted asks =>
    { name := text, raw := some text, asks, isExpression := true, keptType := asserted,
      valueAsked := asserted = some .other }

/-- What questions are about.  An expression always has a text. -/
def subject (m : Memo) : Bytes := if m.isExpression then m.raw.getD [] else m.name

variable {σ : Type}

/-- The type, asked for if it is not kept; with nobody to ask it is `other`. -/
def type (r : Resolver σ) (m : Memo) (s : σ) : TypeTag × Memo × σ :=
  match m.keptType with
  | some t => (t, m, s)
  | none =>
    let (t, s) := if m.asks then r.type m.subject s else (.other, s)
    (t, { m with keptType := some t }, s)

/-- What the value is set to: the answer at the type, or what it was if there is nobody to ask or
the type is `other`. -/
def askValue (r : Resolver σ) (m : Memo) (t : TypeTag) (s : σ) : Option Value × σ :=
  if t ≠ .other ∧ m.asks = true then r.value t m.subject s else (m.keptValue, s)

/-- The value, asked for after the type unless it was asked for before. -/
def value (r : Resolver σ) (m : Memo) (s : σ) : Option Value × Memo × σ :=
  if m.valueAsked then (m.keptValue, m, s)
  else
    let (t, m, s) := m.type r s
    let (v, s) := m.askValue r t s
    (v, { m with keptValue := v, valueAsked := true }, s)

/-- One call: its reply, and what it leaves of the memo. -/
def call (r : Resolver σ) (m : Memo) (s : σ) : Constant.Call → Constant.Reply × Memo × σ
  | .type =>
    let (t, m, s) := m.type r s
    (.type t, m, s)
  | .value =>
    let (v, m, s) := m.value r s
    (.value v, m, s)
  | .typeKnown => (.typeKnown m.keptType.isSome, m, s)
  | .valueKnown => (.valueKnown m.valueAsked, m, s)

/-- Calls in turn. -/
def calls (r : Resolver σ) : List Constant.Call → Memo → σ → List Constant.Reply × Memo × σ
  | [], m, s => ([], m, s)
  | call :: rest, m, s =>
    let (reply, m, s) := m.call r s call
    let (replies, m, s) := calls r rest m s
    (reply :: replies, m, s)

/-! ### The invariant -/

/-- The members agree: once the value was asked for the type is kept, and before that no value
is. -/
structure Ordered (m : Memo) : Prop where
  typed : m.valueAsked = true → m.keptType.isSome = true
  unasked : m.valueAsked = false → m.keptValue = none

variable {r : Resolver σ} {m : Memo} {s : σ}

theorem ordered_ofOrigin (o : Constant.Origin) : (ofOrigin o).Ordered := by
  cases o with
  | named => exact ⟨nofun, fun _ => rfl⟩
  | classified => exact ⟨fun _ => rfl, nofun⟩
  | expression text asserted asks =>
    refine ⟨fun h => ?_, fun _ => rfl⟩
    have hother : asserted = some .other := of_decide_eq_true h
    exact Option.isSome_iff_exists.2 ⟨_, hother⟩

/-- Asking for the type keeps the answer … -/
theorem keptType_type : (m.type r s).2.1.keptType = some (m.type r s).1 := by
  unfold type
  split
  · assumption
  · rfl

/-- … and leaves the value as it is. -/
theorem keptValue_type : (m.type r s).2.1.keptValue = m.keptValue := by
  unfold type
  split <;> rfl

theorem Ordered.valueAsked_eq_false (hm : m.Ordered) (ht : m.keptType = none) :
    m.valueAsked = false := by
  refine Bool.eq_false_iff.2 fun hasked => ?_
  have htyped := hm.typed hasked
  rw [ht] at htyped
  cases htyped

theorem Ordered.type (hm : m.Ordered) : (m.type r s).2.1.Ordered := by
  unfold Memo.type
  split
  · exact hm
  · exact ⟨fun _ => rfl, hm.unasked⟩

theorem Ordered.value (hm : m.Ordered) : (m.value r s).2.1.Ordered := by
  unfold Memo.value
  split
  · exact hm
  · -- the type was asked for first
    exact ⟨fun _ => Option.isSome_iff_exists.2 ⟨_, keptType_type⟩, nofun⟩

theorem Ordered.call (hm : m.Ordered) (q : Constant.Call) : (m.call r s q).2.1.Ordered := by
  cases q with
  | type => exact hm.type
  | value => exact hm.value
  | typeKnown | valueKnown => exact hm

/-! ### The simulation -/

/-- What the members say is known. -/
def progress (m : Memo) : Progress :=
  match m.keptType with
  | none => .fresh
  | some t => if m.valueAsked then .settled t m.keptValue else .typed t

/-- The constant that a memo stands for. -/
def constant (m : Memo) : Constant where
  name := m.name
  raw := m.raw
  subject := if m.asks then some m.subject else none
  progress := m.progress

theorem constant_ofOrigin (o : Constant.Origin) : (ofOrigin o).constant = o.constant := by
  cases o with
  | named | classified => rfl
  | expression text asserted asks =>
    rcases asserted with _ | t
    · rfl
    · cases t <;> rfl

theorem type?_progress (m : Memo) : m.progress.type? = m.keptType := by
  cases ht : m.keptType with
  | none => simp [progress, ht, Progress.type?]
  | some t =>
    simp only [progress, ht]
    split <;> rfl

theorem value?_progress (hm : m.Ordered) :
    m.progress.value? = if m.valueAsked then some m.keptValue else none := by
  cases ht : m.keptType with
  | none => simp [progress, ht, hm.valueAsked_eq_false ht, Progress.value?]
  | some t =>
    simp only [progress, ht]
    split <;> rfl

theorem askType_constant (r : Resolver σ) (m : Memo) (s : σ) :
    m.constant.askType r s = if m.asks then r.type m.subject s else (.other, s) := by
  cases h : m.asks <;> simp [Constant.askType, constant, h]

theorem askValue_constant (hm : m.keptValue = none) (t : TypeTag) :
    m.constant.askValue r t s = m.askValue r t s := by
  by_cases ht : t = .other
  · cases ha : m.asks <;>
      simp [Constant.askValue, constant, askValue, Resolver.valueAt, ha, hm, ht]
  · cases ha : m.asks <;>
      simp [Constant.askValue, constant, askValue, Resolver.valueAt_of_ne, ha, hm, ht]

theorem type_constant (hm : m.Ordered) :
    m.constant.type r s = ((m.type r s).1, (m.type r s).2.1.constant, (m.type r s).2.2) := by
  cases ht : m.keptType with
  | some t =>
    have hknown : m.constant.progress.type? = some t := (type?_progress m).trans ht
    simp only [Constant.type_of_known hknown, type, ht]
  | none =>
    have hfresh : m.constant.progress = .fresh := by simp [constant, progress, ht]
    simp only [Constant.type, hfresh, askType_constant, type, ht]
    simp [constant, progress, subject, hm.valueAsked_eq_false ht]

theorem value_constant (hm : m.Ordered) :
    m.constant.value r s = ((m.value r s).1, (m.value r s).2.1.constant, (m.value r s).2.2) := by
  have hvalue : m.constant.progress.value? = if m.valueAsked then some m.keptValue else none :=
    value?_progress hm
  cases h : m.valueAsked with
  | true =>
    rw [h, if_pos rfl] at hvalue
    simp only [Constant.value_of_known hvalue, value, h, ↓reduceIte]
  | false =>
    rw [h, if_neg Bool.false_ne_true] at hvalue
    have hunasked : (m.type r s).2.1.keptValue = none := keptValue_type.trans (hm.unasked h)
    simp only [Constant.value_of_unknown hvalue, type_constant hm, askValue_constant hunasked,
      value, h]
    simp [constant, progress, subject, keptType_type]

/-- A call on a memo is a call on the constant that it stands for. -/
theorem call_constant (hm : m.Ordered) (q : Constant.Call) :
    m.constant.call r s q =
      ((m.call r s q).1, (m.call r s q).2.1.constant, (m.call r s q).2.2) := by
  cases q with
  | type => simp only [Constant.call, call, type_constant hm]
  | value => simp only [Constant.call, call, value_constant hm]
  | typeKnown =>
    have ht : m.constant.typeKnown = m.keptType.isSome := congrArg _ (type?_progress m)
    simp only [Constant.call, call, ht]
  | valueKnown =>
    have hv : m.constant.valueKnown = m.valueAsked := by
      have hvalue : m.constant.progress.value? = _ := value?_progress hm
      rw [Constant.valueKnown, hvalue]
      cases m.valueAsked <;> rfl
    simp only [Constant.call, call, hv]

/-- **A memo answers as the constant that it stands for**, whatever is called, and puts the same
questions. -/
theorem calls_constant (r : Resolver σ) (qs : List Constant.Call) (hm : m.Ordered) (s : σ) :
    m.constant.calls r qs s =
      ((m.calls r qs s).1, (m.calls r qs s).2.1.constant, (m.calls r qs s).2.2) := by
  induction qs generalizing m s with
  | nil => rfl
  | cons q qs ih => simp only [Constant.calls, calls, call_constant hm, ih (hm.call q)]

/-! ### What is kept fits together -/

/-- The memos that can be reached: between any two calls whoever is asked may have come into any
state. -/
inductive Reachable (r : Resolver σ) : Memo → Prop
  | made {o : Constant.Origin} : o.Faithful → Reachable r (ofOrigin o)
  | called {m : Memo} (q : Constant.Call) (s : σ) :
      Reachable r m → Reachable r (m.call r s q).2.1

/-- The value was asked for only with the type, and a value that is kept was asked for and has the
type that is kept, which is not `other`. -/
structure Coherent (m : Memo) : Prop where
  typed : m.valueAsked = true → m.keptType.isSome = true
  value : ∀ v, m.keptValue = some v →
    m.valueAsked = true ∧ m.keptType = some v.type ∧ v.type ≠ .other

theorem Ordered.coherent (hm : m.Ordered) (hfits : m.constant.Fits) : m.Coherent where
  typed := hm.typed
  value v hv := by
    have hasked : m.valueAsked = true := by
      refine Bool.eq_true_of_not_eq_false fun h => ?_
      rw [hm.unasked h] at hv
      cases hv
    have hknown : m.progress.value? = some (some v) := by
      rw [value?_progress hm, if_pos hasked, hv]
    obtain ⟨htype, hne⟩ := hfits v hknown
    exact ⟨hasked, (type?_progress m).symm.trans htype, hne⟩

theorem fits_call (hr : r.Typed) (hm : m.Ordered) (hfits : m.constant.Fits) (q : Constant.Call) :
    (m.call r s q).2.1.constant.Fits := by
  cases q with
  | type =>
    have hleft : (m.constant.type r s).2.1.Fits := hfits.type
    rwa [type_constant hm] at hleft
  | value =>
    have hleft : (m.constant.value r s).2.1.Fits := hfits.value hr
    rwa [value_constant hm] at hleft
  | typeKnown | valueKnown => exact hfits

namespace Reachable

theorem ordered (h : m.Reachable r) : m.Ordered := by
  induction h with
  | made => exact ordered_ofOrigin _
  | called q s _ ih => exact ih.call q

theorem fits (hr : r.Typed) (h : m.Reachable r) : m.constant.Fits := by
  induction h with
  | made ho =>
    rw [constant_ofOrigin]
    exact Constant.Origin.fits ho
  | called q s h ih => exact fits_call hr h.ordered ih q

/-- Whatever is called on it and whenever, a memo is left with members that fit together. -/
theorem coherent (hr : r.Typed) (h : m.Reachable r) : m.Coherent := h.ordered.coherent (h.fits hr)

end Reachable

end Memo

/-- **The members of every constant fit together**, whatever happened to the catalog before: each of
its constants is what a memo stands for that was made and called in one way or another. -/
theorem Catalog.exists_memo_of_reachable {σ : Type} {r : Resolver σ} {k : Catalog} (hr : r.Typed)
    (hk : k.Reachable r) :
    ∀ c ∈ k.items, ∃ m : Memo, m.Reachable r ∧ m.constant = c ∧ m.Coherent := by
  have hmemo : ∀ c ∈ k.items, ∃ m : Memo, m.Reachable r ∧ m.constant = c := by
    refine hk.forall_items (fun o ho => ⟨_, .made ho, Memo.constant_ofOrigin o⟩) ?_ ?_
    · rintro - s ⟨m, hm, rfl⟩
      refine ⟨_, .called .type s hm, ?_⟩
      rw [Memo.type_constant hm.ordered]
      rfl
    · rintro - s ⟨m, hm, rfl⟩
      refine ⟨_, .called .value s hm, ?_⟩
      rw [Memo.value_constant hm.ordered]
      rfl
  intro c hc
  obtain ⟨m, hm, hmc⟩ := hmemo c hc
  exact ⟨m, hm, hmc, hm.coherent hr⟩

end MacroConstants
