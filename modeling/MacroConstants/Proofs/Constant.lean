import MacroConstants.Constant
import Mathlib.Data.Bool.Basic
import Mathlib.Tactic.Common

/-!
# Constants ask at most once

A constant remembers its type and its value, so whoever is asked about it is asked for each at most
once, whatever is called on the constant and in whatever order, and however the answers would
change if they were asked for again.

* `Exchange`, `Resolver.witnessed` : the questions put to a resolver, with its answers.
* `Constant.Origin` : the ways to make a constant.
* `Constant.calls` : a sequence of calls on a constant.
* `Constant.Reaches` : **the invariant**, what is known of a constant together with all that was
  ever asked about it.
* `Constant.AsksOnce`, `Constant.asksOnce_calls` : what follows for every sequence of calls.
-/

namespace MacroConstants

/-- A question put to a resolver, with its answer. -/
inductive Exchange where
  | type (expression : Bytes) (answer : TypeTag)
  | value (type : TypeTag) (expression : Bytes) (answer : Option Value)
  deriving DecidableEq

namespace Exchange

/-- Whether it was about a type. -/
def isType : Exchange → Bool
  | type .. => true
  | value .. => false

/-- Whether it was about a value. -/
def isValue : Exchange → Bool
  | type .. => false
  | value .. => true

end Exchange

/-- The same answers, with each exchange appended to a list. -/
def Resolver.witnessed {σ : Type} (r : Resolver σ) : Resolver (σ × List Exchange) where
  type expression s :=
    let (answer, t) := r.type expression s.1
    (answer, t, s.2 ++ [.type expression answer])
  value type expression s :=
    let (answer, t) := r.value type expression s.1
    (answer, t, s.2 ++ [.value type expression answer])

theorem Resolver.valueAt_of_ne {σ : Type} {r : Resolver σ} {t : TypeTag} (h : t ≠ .other)
    (e : Bytes) (s : σ) : r.valueAt t e s = r.value t e s := by
  unfold valueAt
  split
  · exact absurd rfl h
  · rfl

namespace Constant

/-! ### Ways to make a constant -/

/-- The ways to make a constant; without `asks` there is nobody to ask. -/
inductive Origin where
  | named (name : Bytes) (raw : Option Bytes) (asks : Bool)
  | classified (name raw : Bytes) (type : TypeTag) (value : Value)
  | expression (text : Bytes) (asserted : Option TypeTag) (asks : Bool)
  deriving DecidableEq

namespace Origin

/-- The constant that is made. -/
def constant : Origin → Constant
  | .named name raw asks => .unresolved name raw asks
  | .classified name raw type value => .classified name raw type value
  | .expression text asserted asks => .expression text asserted asks

/-- What may be asked about: the name of a macro, the text of an expression. -/
def subject : Origin → Option Bytes
  | .named name _ asks => if asks then some name else none
  | .classified .. => none
  | .expression text _ asks => if asks then some text else none

/-- The type that is asserted. -/
def asserted : Origin → Option TypeTag
  | .expression _ asserted _ => asserted
  | _ => none

/-- Whether the type is neither given nor asserted. -/
def isOpen : Origin → Bool
  | .named .. => true
  | .classified .. => false
  | .expression _ asserted _ => asserted.isNone

theorem subject_constant (o : Origin) : o.constant.subject = o.subject := by cases o <;> rfl

/-- The type of a new constant is unknown exactly if it is neither given nor asserted. -/
theorem progress_eq_fresh_iff (o : Origin) : o.constant.progress = .fresh ↔ o.isOpen = true := by
  cases o with
  | named => simp [constant, unresolved, isOpen]
  | classified => simp [constant, Constant.classified, isOpen]
  | expression text asserted asks =>
    rcases asserted with _ | t
    · simp [constant, Constant.expression, isOpen]
    · cases t <;> simp [constant, Constant.expression, isOpen]

theorem asserted_of_progress_eq_typed {o : Origin} {t : TypeTag}
    (h : o.constant.progress = .typed t) : o.asserted = some t := by
  cases o with
  | named => simp [constant, unresolved] at h
  | classified => simp [constant, Constant.classified] at h
  | expression text asserted asks =>
    rcases asserted with _ | a
    · simp [constant, Constant.expression] at h
    · cases a <;> simp_all [constant, Constant.expression, Origin.asserted]

theorem progress_of_asserted_other {o : Origin} (h : o.asserted = some .other) :
    o.constant.progress = .settled .other none := by
  cases o with
  | named => simp [Origin.asserted] at h
  | classified => simp [Origin.asserted] at h
  | expression text asserted asks =>
    obtain rfl : asserted = some .other := h
    rfl

end Origin

/-! ### Sequences of calls -/

variable {σ : Type}

/-- A call on a constant. -/
inductive Call where
  | type
  | value
  | typeKnown
  | valueKnown
  deriving DecidableEq

/-- What a call returns. -/
inductive Reply where
  | type (t : TypeTag)
  | value (v : Option Value)
  | typeKnown (known : Bool)
  | valueKnown (known : Bool)
  deriving DecidableEq

/-- One call: its reply, and what it leaves of the constant. -/
def call (r : Resolver σ) (c : Constant) (s : σ) : Call → Reply × Constant × σ
  | .type =>
    let (t, c, s) := c.type r s
    (.type t, c, s)
  | .value =>
    let (v, c, s) := c.value r s
    (.value v, c, s)
  | .typeKnown => (.typeKnown c.typeKnown, c, s)
  | .valueKnown => (.valueKnown c.valueKnown, c, s)

/-- Calls in turn. -/
def calls (r : Resolver σ) : List Call → Constant → σ → List Reply × Constant × σ
  | [], c, s => ([], c, s)
  | call :: rest, c, s =>
    let (reply, c, s) := c.call r s call
    let (replies, c, s) := calls r rest c s
    (reply :: replies, c, s)

/-! ### The invariant -/

/-- What can be known of a constant together with all that was asked about it: nothing was asked,
or the type, and then perhaps the value at that type. -/
inductive Reaches (start : Progress) (subject : Option Bytes) : Progress → List Exchange → Prop
  | start : Reaches start subject start []
  | asked {e : Bytes} {t : TypeTag} : start = .fresh → subject = some e →
      Reaches start subject (.typed t) [.type e t]
  | unasked : start = .fresh → subject = none → Reaches start subject (.typed .other) []
  | settled {e : Bytes} {t : TypeTag} {v : Option Value} {log : List Exchange} :
      Reaches start subject (.typed t) log → subject = some e → t ≠ .other →
      Reaches start subject (.settled t v) (log ++ [.value t e v])
  | missing {t : TypeTag} {log : List Exchange} :
      Reaches start subject (.typed t) log → subject = none ∨ t = .other →
      Reaches start subject (.settled t none) log

variable {start : Progress} {subject : Option Bytes} {p : Progress} {log : List Exchange}

namespace Reaches

/-- The four shapes of what was asked. -/
theorem log_cases (h : Reaches start subject p log) :
    log = [] ∨
    (∃ e t, start = .fresh ∧ subject = some e ∧ p.type? = some t ∧ log = [.type e t]) ∨
    (∃ e t v, start = .typed t ∧ subject = some e ∧ t ≠ .other ∧ p = .settled t v ∧
      log = [.value t e v]) ∨
    (∃ e t v, start = .fresh ∧ subject = some e ∧ t ≠ .other ∧ p = .settled t v ∧
      log = [.type e t, .value t e v]) := by
  cases h with
  | start => exact .inl rfl
  | asked hs he => exact .inr (.inl ⟨_, _, hs, he, rfl, rfl⟩)
  | unasked => exact .inl rfl
  | settled ht he hne =>
    cases ht with
    | start => exact .inr (.inr (.inl ⟨_, _, _, rfl, he, hne, rfl, rfl⟩))
    | asked hs he' =>
      obtain rfl := Option.some.inj (he.symm.trans he')
      exact .inr (.inr (.inr ⟨_, _, _, hs, he, hne, rfl, rfl⟩))
    | unasked => exact absurd rfl hne
  | missing ht =>
    cases ht with
    | start => exact .inl rfl
    | asked hs he => exact .inr (.inl ⟨_, _, hs, he, rfl, rfl⟩)
    | unasked => exact .inl rfl

theorem countP_isType_le (h : Reaches start subject p log) : log.countP Exchange.isType ≤ 1 := by
  rcases h.log_cases with rfl | ⟨_, _, _, _, _, rfl⟩ | ⟨_, _, _, _, _, _, _, rfl⟩ |
    ⟨_, _, _, _, _, _, _, rfl⟩ <;> simp [List.countP_cons, Exchange.isType]

theorem countP_isValue_le (h : Reaches start subject p log) :
    log.countP Exchange.isValue ≤ 1 := by
  rcases h.log_cases with rfl | ⟨_, _, _, _, _, rfl⟩ | ⟨_, _, _, _, _, _, _, rfl⟩ |
    ⟨_, _, _, _, _, _, _, rfl⟩ <;> simp [List.countP_cons, Exchange.isValue]

theorem silent (h : Reaches start none p log) : log = [] := by
  rcases h.log_cases with rfl | ⟨_, _, _, hs, _⟩ | ⟨_, _, _, _, hs, _⟩ | ⟨_, _, _, _, hs, _⟩
  · rfl
  all_goals cases hs

/-- A type that was asked for was not known before, and the answer is remembered. -/
theorem of_type_mem {e : Bytes} {t : TypeTag} (h : Reaches start subject p log)
    (hm : .type e t ∈ log) : start = .fresh ∧ subject = some e ∧ p.type? = some t := by
  rcases h.log_cases with rfl | ⟨e', t', hf, hs, ht, rfl⟩ | ⟨_, _, _, _, _, _, _, rfl⟩ |
    ⟨e', t', v, hf, hs, _, rfl, rfl⟩
  · cases hm
  · obtain ⟨rfl, rfl⟩ : e = e' ∧ t = t' := by simpa using hm
    exact ⟨hf, hs, ht⟩
  · simp at hm
  · obtain ⟨rfl, rfl⟩ : e = e' ∧ t = t' := by simpa using hm
    exact ⟨hf, hs, rfl⟩

/-- A value is asked for at the type that is known, and the answer is remembered. -/
theorem of_value_mem {e : Bytes} {t : TypeTag} {v : Option Value}
    (h : Reaches start subject p log) (hm : .value t e v ∈ log) :
    t ≠ .other ∧ subject = some e ∧ p = .settled t v := by
  rcases h.log_cases with rfl | ⟨_, _, _, _, _, rfl⟩ | ⟨e', t', v', _, hs, hne, hp, rfl⟩ |
    ⟨e', t', v', _, hs, hne, hp, rfl⟩
  · cases hm
  · simp at hm
  · obtain ⟨rfl, rfl, rfl⟩ : t = t' ∧ e = e' ∧ v = v' := by simpa using hm
    exact ⟨hne, hs, hp⟩
  · obtain ⟨rfl, rfl, rfl⟩ : t = t' ∧ e = e' ∧ v = v' := by simpa using hm
    exact ⟨hne, hs, hp⟩

/-- A value is asked for after its type: that is known from the start or asked for first. -/
theorem typed_or_type_mem {before after : List Exchange} {e : Bytes} {t : TypeTag}
    {v : Option Value} (h : Reaches start subject p log)
    (hl : log = before ++ .value t e v :: after) : start = .typed t ∨ .type e t ∈ before := by
  rcases h.log_cases with rfl | ⟨_, _, _, _, _, rfl⟩ | ⟨e', t', v', hs, _, _, _, rfl⟩ |
    ⟨e', t', v', _, _, _, _, rfl⟩
  · simp at hl
  -- at most one question comes before the one about the value
  · rcases before with _ | ⟨_, _ | _⟩ <;> simp at hl
  · rcases before with _ | ⟨_, _ | _⟩ <;> simp at hl
    exact .inl (hl.1.1 ▸ hs)
  · rcases before with _ | ⟨x, _ | ⟨_, _ | _⟩⟩ <;> simp at hl
    obtain ⟨rfl, ⟨rfl, rfl, rfl⟩, rfl⟩ := hl
    exact .inr (.head _)

/-- At `other`, answered or asserted, the value is missing. -/
theorem value_other {v : Option Value} (h : Reaches start subject p log)
    (ho : start = .settled .other none ∨ ∃ e, .type e .other ∈ log) (hv : p.value? = some v) :
    v = none := by
  rcases ho with rfl | ⟨e, hm⟩
  · cases h with
    | start => exact (Option.some.inj hv).symm
    | asked hs => cases hs
    | unasked hs => cases hs
    | settled ht _ hne =>
      cases ht with
      | asked hs => cases hs
      | unasked => exact absurd rfl hne
    | missing => exact (Option.some.inj hv).symm
  · obtain ⟨rfl, -, ht⟩ := h.of_type_mem hm
    cases h with
    | settled _ _ hne => exact absurd (Option.some.inj ht) hne
    | missing => exact (Option.some.inj hv).symm
    | _ => cases hv

end Reaches

/-! ### What one call does -/

variable {r : Resolver σ} {c : Constant} {s : σ} {t : TypeTag} {v : Option Value}

theorem type_of_known (h : c.progress.type? = some t) : c.type r s = (t, c, s) := by
  unfold type
  split
  · rename_i hp; simp [hp, Progress.type?] at h
  · rename_i hp; simp_all [Progress.type?]
  · rename_i hp; simp_all [Progress.type?]

theorem value_of_known (h : c.progress.value? = some v) : c.value r s = (v, c, s) := by
  unfold value
  split
  · rename_i hp; simp_all [Progress.value?]
  · rename_i hp
    cases hc : c.progress with
    | settled t w => exact absurd hc (hp t w)
    | _ => simp [hc, Progress.value?] at h

/-- A value that is not known is asked for at the type. -/
theorem value_of_unknown (h : c.progress.value? = none) :
    c.value r s =
      let (t, c, s) := c.type r s
      let (v, s) := c.askValue r t s
      (v, { c with progress := .settled t v }, s) := by
  unfold value
  split
  · rename_i hp; simp [hp, Progress.value?] at h
  · rfl

/-- A value that is had was answered to a question, which is not put at `other`. -/
theorem exists_of_askValue {v : Value} (h : (c.askValue r t s).1 = some v) :
    t ≠ .other ∧ ∃ e, (r.value t e s).1 = some v := by
  unfold askValue at h
  split at h
  · rename_i e _
    by_cases ht : t = .other
    · rw [ht] at h
      cases h
    · rw [Resolver.valueAt_of_ne ht] at h
      exact ⟨ht, e, h⟩
  · cases h

@[simp] theorem subject_type : (c.type r s).2.1.subject = c.subject := by
  unfold type
  split <;> rfl

@[simp] theorem subject_value : (c.value r s).2.1.subject = c.subject := by
  unfold value
  split
  · rfl
  · exact subject_type

/-- The type is known after it was asked for, and it is the reply. -/
theorem type?_type (r : Resolver σ) (c : Constant) (s : σ) :
    (c.type r s).2.1.progress.type? = some (c.type r s).1 := by
  unfold type
  split
  · rfl
  · rename_i h; simp [h, Progress.type?]
  · rename_i h; simp [h, Progress.type?]

/-- The value is known after it was asked for, and it is the reply. -/
theorem value?_value (r : Resolver σ) (c : Constant) (s : σ) :
    (c.value r s).2.1.progress.value? = some (c.value r s).1 := by
  unfold value
  split
  · rename_i h; simp [h, Progress.value?]
  · rfl

/-- As long as the value is not known, asking for the type leaves just the type known. -/
theorem progress_type (h : c.progress.value? = none) :
    (c.type r s).2.1.progress = .typed (c.type r s).1 := by
  unfold type
  split
  · rfl
  · rename_i hp; exact hp
  · rename_i hp; simp [hp, Progress.value?] at h

/-! ### What one call keeps -/

theorem type?_value (h : c.progress.type? = some t) :
    (c.value r s).2.1.progress.type? = some t := by
  rcases hv : c.progress.value? with _ | v
  · rw [value_of_unknown hv, type_of_known h]
    rfl
  · rw [value_of_known hv]
    exact h

theorem type?_call (h : c.progress.type? = some t) (q : Call) :
    (c.call r s q).2.1.progress.type? = some t := by
  cases q with
  | type => simpa [call, type_of_known h] using h
  | value => exact type?_value h
  | typeKnown => exact h
  | valueKnown => exact h

theorem Progress.type?_of_value? {p : Progress} (h : p.value? = some v) :
    ∃ t, p.type? = some t := by
  cases p with
  | settled t w => exact ⟨t, rfl⟩
  | _ => simp [Progress.value?] at h

theorem value?_call (h : c.progress.value? = some v) (q : Call) :
    (c.call r s q).2.1.progress.value? = some v := by
  cases q with
  | type =>
    obtain ⟨t, ht⟩ := Progress.type?_of_value? h
    simpa [call, type_of_known ht] using h
  | value => simpa [call, value_of_known h] using h
  | typeKnown => exact h
  | valueKnown => exact h

theorem typeKnown_call (h : c.typeKnown = true) (q : Call) :
    (c.call r s q).2.1.typeKnown = true := by
  obtain ⟨t, ht⟩ := Option.isSome_iff_exists.1 h
  exact Option.isSome_iff_exists.2 ⟨t, type?_call ht q⟩

theorem valueKnown_call (h : c.valueKnown = true) (q : Call) :
    (c.call r s q).2.1.valueKnown = true := by
  obtain ⟨v, hv⟩ := Option.isSome_iff_exists.1 h
  exact Option.isSome_iff_exists.2 ⟨v, value?_call hv q⟩

@[simp] theorem subject_call (q : Call) : (c.call r s q).2.1.subject = c.subject := by
  cases q with
  | type => exact subject_type
  | value => exact subject_value
  | typeKnown => rfl
  | valueKnown => rfl

variable {log : List Exchange}

theorem Reaches.type (h : Reaches start c.subject c.progress log) :
    Reaches start c.subject (c.type r.witnessed (s, log)).2.1.progress
      (c.type r.witnessed (s, log)).2.2.2 := by
  rcases ht : c.progress.type? with _ | t
  · -- nothing was known, so nothing was asked before
    have hp : c.progress = .fresh := by
      cases hc : c.progress <;> simp_all [Progress.type?]
    rw [hp] at h
    cases h
    unfold Constant.type askType
    rw [hp]
    cases hs : c.subject with
    | none => exact .unasked rfl rfl
    | some e => exact .asked rfl rfl
  · rw [type_of_known ht]
    exact h

theorem Reaches.askValue (h : Reaches start c.subject (.typed t) log) :
    Reaches start c.subject (.settled t (c.askValue r.witnessed t (s, log)).1)
      (c.askValue r.witnessed t (s, log)).2.2 := by
  unfold Constant.askValue
  cases hs : c.subject with
  | none =>
    rw [hs] at h
    exact .missing h (.inl rfl)
  | some e =>
    rw [hs] at h
    by_cases ht : t = .other
    · subst ht
      exact .missing h (.inr rfl)
    · simp only [Resolver.valueAt_of_ne ht]
      exact .settled h rfl ht

theorem Reaches.value (h : Reaches start c.subject c.progress log) :
    Reaches start c.subject (c.value r.witnessed (s, log)).2.1.progress
      (c.value r.witnessed (s, log)).2.2.2 := by
  rcases hv : c.progress.value? with _ | v
  · have ht := h.type (r := r) (s := s)
    have hd : (c.type r.witnessed (s, log)).2.1.subject = c.subject := subject_type
    rw [value_of_unknown hv]
    rw [progress_type hv, ← hd] at ht
    rw [← hd]
    exact ht.askValue
  · rw [value_of_known hv]
    exact h

/-- **One call keeps the invariant.** -/
theorem Reaches.call (h : Reaches start c.subject c.progress log) (q : Call) :
    Reaches start (c.call r.witnessed (s, log) q).2.1.subject
      (c.call r.witnessed (s, log) q).2.1.progress (c.call r.witnessed (s, log) q).2.2.2 := by
  rw [subject_call]
  cases q with
  | type => exact h.type
  | value => exact h.value
  | typeKnown => exact h
  | valueKnown => exact h

/-! ### What a reply says -/

variable {q : Call} {known : Bool}

theorem type?_of_reply (h : .type t = (c.call r s q).1) :
    (c.call r s q).2.1.progress.type? = some t := by
  cases q with
  | type =>
    obtain rfl := Reply.type.inj h
    exact type?_type r c s
  | _ => cases h

theorem value?_of_reply (h : .value v = (c.call r s q).1) :
    (c.call r s q).2.1.progress.value? = some v := by
  cases q with
  | value =>
    obtain rfl := Reply.value.inj h
    exact value?_value r c s
  | _ => cases h

theorem typeKnown_of_reply (h : .typeKnown known = (c.call r s q).1) : known = c.typeKnown := by
  cases q with
  | typeKnown => exact Reply.typeKnown.inj h
  | _ => cases h

theorem valueKnown_of_reply (h : .valueKnown known = (c.call r s q).1) : known = c.valueKnown := by
  cases q with
  | valueKnown => exact Reply.valueKnown.inj h
  | _ => cases h

/-! ### What a sequence of calls keeps -/

variable {qs : List Call}

theorem mem_calls_cons {reply : Reply} :
    reply ∈ (c.calls r (q :: qs) s).1 ↔
      reply = (c.call r s q).1 ∨
        reply ∈ ((c.call r s q).2.1.calls r qs (c.call r s q).2.2).1 :=
  List.mem_cons

/-- **A sequence of calls keeps the invariant.** -/
theorem Reaches.calls (h : Reaches start c.subject c.progress log) (qs : List Call) :
    Reaches start c.subject (c.calls r.witnessed qs (s, log)).2.1.progress
      (c.calls r.witnessed qs (s, log)).2.2.2 := by
  induction qs generalizing c s log with
  | nil => exact h
  | cons q qs ih =>
    have hq := h.call (r := r) (s := s) q
    have hqs := ih (s := (c.call r.witnessed (s, log) q).2.2.1) hq
    rwa [subject_call] at hqs

section Keeping

variable {P : Constant → Prop} {reply reply' : Reply}

theorem calls_keeps (hP : ∀ c s q, P c → P (c.call r s q).2.1) (hc : P c) :
    P (c.calls r qs s).2.1 := by
  induction qs generalizing c s with
  | nil => exact hc
  | cons q qs ih => exact ih (hP c s q hc)

/-- What holds after a reply, and is kept, holds in the end. -/
theorem of_mem_calls (hP : ∀ c s q, P c → P (c.call r s q).2.1)
    (hreply : ∀ (c : Constant) s q, reply = (c.call r s q).1 → P (c.call r s q).2.1)
    (h : reply ∈ (c.calls r qs s).1) : P (c.calls r qs s).2.1 := by
  induction qs generalizing c s with
  | nil => cases h
  | cons q qs ih =>
    rcases mem_calls_cons.1 h with hq | hqs
    · exact calls_keeps (c := (c.call r s q).2.1) hP (hreply c s q hq)
    · exact ih hqs

/-- A reply that is never given where something holds that is kept is not given later on. -/
theorem notMem_calls (hP : ∀ c s q, P c → P (c.call r s q).2.1)
    (hreply : ∀ c s q, P c → reply ≠ (c.call r s q).1) (hc : P c) :
    reply ∉ (c.calls r qs s).1 := by
  induction qs generalizing c s with
  | nil => exact List.not_mem_nil
  | cons q qs ih =>
    rw [mem_calls_cons, not_or]
    exact ⟨hreply c s q hc, ih (hP c s q hc)⟩

/-- The second reply never comes after the first, if what holds where the first is given is kept
and excludes the second. -/
theorem pairwise_calls (hP : ∀ c s q, P c → P (c.call r s q).2.1)
    (hreply : ∀ (c : Constant) s q, reply = (c.call r s q).1 → P c)
    (hreply' : ∀ c s q, P c → reply' ≠ (c.call r s q).1) :
    (c.calls r qs s).1.Pairwise fun a b => a = reply → b ≠ reply' := by
  induction qs generalizing c s with
  | nil => exact .nil
  | cons q qs ih =>
    refine .cons (fun b hb ha hb' => ?_) ih
    exact notMem_calls hP hreply' (hP c s q (hreply c s q ha.symm)) (hb' ▸ hb)

end Keeping

/-- Every type that was returned is the type that is known in the end. -/
theorem type?_of_mem_calls (h : .type t ∈ (c.calls r qs s).1) :
    (c.calls r qs s).2.1.progress.type? = some t :=
  of_mem_calls (P := fun c => c.progress.type? = some t) (fun _ _ q h => type?_call h q)
    (fun _ _ _ => type?_of_reply) h

/-- Every value that was returned is the value that is known in the end. -/
theorem value?_of_mem_calls (h : .value v ∈ (c.calls r qs s).1) :
    (c.calls r qs s).2.1.progress.value? = some v :=
  of_mem_calls (P := fun c => c.progress.value? = some v) (fun _ _ q h => value?_call h q)
    (fun _ _ _ => value?_of_reply) h

/-- Once the type was said to be known it is never said to be unknown. -/
theorem pairwise_typeKnown (r : Resolver σ) (qs : List Call) (c : Constant) (s : σ) :
    (c.calls r qs s).1.Pairwise fun a b => a = .typeKnown true → b ≠ .typeKnown false := by
  refine pairwise_calls (P := fun c => c.typeKnown = true) (fun _ _ q h => typeKnown_call h q)
    (fun c s q h => (typeKnown_of_reply h).symm) (fun c s q h hq => ?_)
  exact Bool.false_ne_true ((typeKnown_of_reply hq).trans h)

/-- Once the value was said to be known it is never said to be unknown. -/
theorem pairwise_valueKnown (r : Resolver σ) (qs : List Call) (c : Constant) (s : σ) :
    (c.calls r qs s).1.Pairwise fun a b => a = .valueKnown true → b ≠ .valueKnown false := by
  refine pairwise_calls (P := fun c => c.valueKnown = true) (fun _ _ q h => valueKnown_call h q)
    (fun c s q h => (valueKnown_of_reply h).symm) (fun c s q h hq => ?_)
  exact Bool.false_ne_true ((valueKnown_of_reply hq).trans h)

/-! ### What is asked -/

/-- What `replies` to a sequence of calls, the `log` of what was asked during it and the constant
`left` by it say together, for a constant of origin `o`. -/
structure AsksOnce (o : Origin) (replies : List Reply) (log : List Exchange)
    (left : Constant) : Prop where
  /-- The type is asked for at most once, … -/
  type_once : log.countP Exchange.isType ≤ 1
  /-- … only if it is neither given nor asserted, and about the subject. -/
  type_asked : ∀ e t, .type e t ∈ log → o.isOpen = true ∧ o.subject = some e
  /-- The value is asked for at most once, … -/
  value_once : log.countP Exchange.isValue ≤ 1
  /-- … about the subject, at the type that is known by then, which is not `other`. -/
  value_asked : ∀ before after t e v, log = before ++ .value t e v :: after →
    t ≠ .other ∧ o.subject = some e ∧ (o.asserted = some t ∨ .type e t ∈ before)
  /-- Without a subject nobody is asked. -/
  silent : o.subject = none → log = []
  /-- Every type returned is the one remembered, … -/
  type_remembered : ∀ t, .type t ∈ replies → left.progress.type? = some t
  /-- … which is the answer, if it was asked for, and the type of the question for the value. -/
  type_answer : ∀ e t, .type e t ∈ log → left.progress.type? = some t
  type_question : ∀ e t v, .value t e v ∈ log → left.progress.type? = some t
  /-- Every value returned is the one remembered, which is the answer, if it was asked for. -/
  value_remembered : ∀ v, .value v ∈ replies → left.progress.value? = some v
  value_answer : ∀ e t v, .value t e v ∈ log → left.progress.value? = some v
  /-- All types returned are equal, and so are all values. -/
  type_unique : ∀ t t', .type t ∈ replies → .type t' ∈ replies → t = t'
  value_unique : ∀ v v', .value v ∈ replies → .value v' ∈ replies → v = v'
  /-- At `other`, answered or asserted, there is no value. -/
  value_other : (o.asserted = some .other ∨ ∃ e, .type e .other ∈ log) →
    ∀ v, .value v ∈ replies → v = none
  /-- What is known stays known. -/
  typeKnown_stays : replies.Pairwise fun a b => a = .typeKnown true → b ≠ .typeKnown false
  valueKnown_stays : replies.Pairwise fun a b => a = .valueKnown true → b ≠ .valueKnown false

/-- **A constant asks at most once.**  However a constant was made, whoever is asked about it and
however the answers change, every sequence of calls asks at most once for the type and at most
once for the value, and remembers what it was told. -/
theorem asksOnce_calls (o : Origin) (r : Resolver σ) (qs : List Call) (s : σ) :
    let run := o.constant.calls r.witnessed qs (s, [])
    AsksOnce o run.1 run.2.2.2 run.2.1 := by
  intro run
  have h : Reaches o.constant.progress o.subject run.2.1.progress run.2.2.2 := by
    rw [← o.subject_constant]
    exact Reaches.calls .start qs
  exact {
    type_once := h.countP_isType_le
    type_asked := fun e t hm => by
      obtain ⟨hf, hs, -⟩ := h.of_type_mem hm
      exact ⟨o.progress_eq_fresh_iff.1 hf, hs⟩
    value_once := h.countP_isValue_le
    value_asked := fun before after t e v hl => by
      have hm : .value t e v ∈ run.2.2.2 := by simp [hl]
      obtain ⟨hne, hs, -⟩ := h.of_value_mem hm
      exact ⟨hne, hs, (h.typed_or_type_mem hl).imp_left Origin.asserted_of_progress_eq_typed⟩
    silent := fun hs => by
      rw [hs] at h
      exact h.silent
    type_remembered := fun t => type?_of_mem_calls
    type_answer := fun e t hm => (h.of_type_mem hm).2.2
    type_question := fun e t v hm => by
      rw [(h.of_value_mem hm).2.2]
      rfl
    value_remembered := fun v => value?_of_mem_calls
    value_answer := fun e t v hm => by
      rw [(h.of_value_mem hm).2.2]
      rfl
    type_unique := fun t t' ht ht' =>
      Option.some.inj ((type?_of_mem_calls ht).symm.trans (type?_of_mem_calls ht'))
    value_unique := fun v v' hv hv' =>
      Option.some.inj ((value?_of_mem_calls hv).symm.trans (value?_of_mem_calls hv'))
    value_other := fun ho v hv =>
      h.value_other (ho.imp_left Origin.progress_of_asserted_other) (value?_of_mem_calls hv)
    typeKnown_stays := pairwise_typeKnown _ qs _ _
    valueKnown_stays := pairwise_valueKnown _ qs _ _
  }

end Constant

end MacroConstants
