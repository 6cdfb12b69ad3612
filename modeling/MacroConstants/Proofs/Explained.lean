import MacroConstants.Proofs.Probe

/-!
# Which calls of a prober are explained

If the configuration is verbose and someone listens, a probe that fails is explained by a note.
A probe that goes through all its stages gives no note, although the call may find nothing then:
its function may return a null pointer, or a text that spells no type.

* `Prober.Call.failure?` : the failure of a call's probe.
* `Prober.recorded_after` : a history records a note for each failure, in order, and nothing else.
* `Prober.Call.Unanswered`, `Prober.Call.Mute` : a call that finds nothing, and one that finds
  nothing although every stage of its probe succeeds.
* `Prober.Call.unanswered_iff` : a call finds nothing if its probe fails or it is mute.
* `Prober.explained_calls` : **a call is explained exactly if it is not mute**.
-/

namespace MacroConstants

variable {τ α : Type}

namespace ProbeFailure

/-- The note for a failure; it concerns the run as a whole. -/
def finding (f : ProbeFailure) : Finding := { level := .note, message := f.message }

/-- The failure of a probe, if it has one. -/
def of? : Except ProbeFailure α → Option ProbeFailure
  | .error failure => some failure
  | .ok _ => none

theorem of?_eq_some_iff {r : Except ProbeFailure α} {f : ProbeFailure} :
    of? r = some f ↔ r = .error f := by
  cases r <;> simp [of?]

theorem of?_eq_none_iff {r : Except ProbeFailure α} : of? r = none ↔ ∃ a, r = .ok a := by
  cases r <;> simp [of?]

end ProbeFailure

/-- An answer means `other` exactly if it spells no other type. -/
theorem TypeTag.ofAnswer_eq_other_iff {text : Bytes} :
    TypeTag.ofAnswer text = .other ↔
      ∀ t : TypeTag, t ≠ .other → text.trim Bytes.isSpace ≠ t.name := by
  constructor
  · intro h t ht hname
    rw [(TypeTag.ofAnswer_eq_iff ht).2 hname] at h
    exact ht h
  · intro h
    by_contra ht
    exact h _ ht ((TypeTag.ofAnswer_eq_iff ht).1 rfl)

/-- A probe itself records nothing. -/
theorem Probe.diagnostics_run (h : Host τ) (config : Configuration) (stem text symbol : Bytes)
    (function : Bytes → SharedObject → Option α) (s : RunState τ) :
    (run h config stem text symbol function s).2.diagnostics = s.diagnostics := by
  rcases prepared_or h text s with ⟨unique, t, hp⟩ | hno
  · obtain ⟨result, t'', heq, -⟩ := run_of_prepared hp rfl
    rw [heq]
  · obtain ⟨failure, t, probes, heq⟩ := run_of_not_prepared hno
    rw [heq]

namespace Prober

variable {p : Prober τ} {s : RunState τ} {call : Prober.Call}

/-! ### What is recorded -/

/-- Whether failures are reported: the configuration is verbose and someone listens. -/
def reports (p : Prober τ) : Bool := p.attached && p.config.verbose

/-- What is recorded for failures. -/
def notes (p : Prober τ) (failures : List ProbeFailure) : List Finding :=
  if p.reports then failures.map ProbeFailure.finding else []

@[simp] theorem notes_nil (p : Prober τ) : p.notes [] = [] := by
  simp [notes]

theorem notes_append (p : Prober τ) (failures failures' : List ProbeFailure) :
    p.notes (failures ++ failures') = p.notes failures ++ p.notes failures' := by
  unfold notes
  split
  · exact List.map_append
  · rfl

theorem recorded_note (p : Prober τ) (f : ProbeFailure) (s : RunState τ) :
    (p.note f s).diagnostics.recorded = s.diagnostics.recorded ++ p.notes [f] := by
  unfold note notes reports
  split
  · rfl
  · exact (List.append_nil _).symm

theorem recorded_ask (p : Prober τ) (stem text symbol : Bytes)
    (function : Bytes → SharedObject → Option α) (s : RunState τ) :
    (p.ask stem text symbol function s).2.diagnostics.recorded = s.diagnostics.recorded ++
      p.notes (ProbeFailure.of?
        (Probe.run p.host p.config stem text symbol function s).1).toList := by
  have hrun := Probe.diagnostics_run p.host p.config stem text symbol function s
  unfold ask
  split
  · rename_i answer s' heq
    rw [heq] at hrun ⊢
    simp only [ProbeFailure.of?, Option.toList_none, notes_nil, List.append_nil]
    exact congrArg Findings.recorded hrun
  · rename_i failure s' heq
    rw [heq] at hrun ⊢
    rw [recorded_note]
    simp only [ProbeFailure.of?, Option.toList_some]
    exact congrArg (fun ds : Findings => ds.recorded ++ p.notes [failure]) hrun

/-- The probe for the type of an expression: how it ends. -/
def typeProbe (p : Prober τ) (expression : Bytes) (s : RunState τ) :
    Except ProbeFailure (Option Bytes) :=
  (Probe.run p.host p.config (bytes "cet") (p.source.forType expression) Probe.Source.typeSymbol
    SharedObject.typeFunctionAt s).1

/-- The probe with a text for the value of an expression: how it ends. -/
def valueProbe (p : Prober τ) (text : Bytes) (s : RunState τ) : Except ProbeFailure Reading :=
  (Probe.run p.host p.config (bytes "cev") text Probe.Source.valueSymbol
    SharedObject.valueFunctionAt s).1

/-- The failure of a call's probe; without a probe there is none. -/
def Call.failure? (p : Prober τ) : Call → RunState τ → Option ProbeFailure
  | type expression, s => ProbeFailure.of? (p.typeProbe expression s)
  | value t expression, s =>
    (p.source.forValue? t expression).bind fun text => ProbeFailure.of? (p.valueProbe text s)

/-- The failures of calls in order. -/
def failures (p : Prober τ) : List Call → RunState τ → List ProbeFailure
  | [], _ => []
  | call :: calls, s => (call.failure? p s).toList ++ failures p calls (call.after p s)

theorem recorded_call (p : Prober τ) (call : Call) (s : RunState τ) :
    (call.after p s).diagnostics.recorded =
      s.diagnostics.recorded ++ p.notes (call.failure? p s).toList := by
  cases call with
  | type expression =>
    rw [Call.after, type_snd, recorded_ask]
    rfl
  | value t expression =>
    by_cases ht : t = .other
    · have hnone : p.source.forValue? .other expression = none := rfl
      rw [ht, Call.after, value_other, Call.failure?, hnone]
      simp
    · obtain ⟨text, htext⟩ := p.exists_forValue ht expression
      rw [Call.after, value_eq htext, recorded_ask, Call.failure?, htext]
      rfl

/-- A history records a note for each failure in it, in order, and nothing else. -/
theorem recorded_after (p : Prober τ) (calls : List Call) (s : RunState τ) :
    (p.after calls s).diagnostics.recorded =
      s.diagnostics.recorded ++ p.notes (p.failures calls s) := by
  induction calls generalizing s with
  | nil => simp [after, failures]
  | cons call calls ih =>
    have hfirst := recorded_call p call s
    calc (p.after (call :: calls) s).diagnostics.recorded
        = (call.after p s).diagnostics.recorded ++ p.notes (p.failures calls (call.after p s)) :=
          ih (call.after p s)
      _ = s.diagnostics.recorded ++ p.notes (p.failures (call :: calls) s) := by
          rw [hfirst, failures, notes_append, List.append_assoc]

/-! ### Calls that find nothing -/

section Answers

variable {expression text : Bytes} {t : TypeTag} {answer : Option Bytes} {r : Reading}
  {failure : ProbeFailure}

theorem type_of_error (h : p.typeProbe expression s = .error failure) :
    (p.type expression s).1 = .other := by
  have hask := (ask_eq p (bytes "cet") (p.source.forType expression) Probe.Source.typeSymbol
    SharedObject.typeFunctionAt s).1
  rw [← typeProbe, h] at hask
  simp only [type, hask, Except.toOption]

theorem type_of_ok (h : p.typeProbe expression s = .ok answer) :
    (p.type expression s).1 =
      (answer.map fun tag => TypeTag.ofAnswer tag.beforeNul).getD .other := by
  have hask := (ask_eq p (bytes "cet") (p.source.forType expression) Probe.Source.typeSymbol
    SharedObject.typeFunctionAt s).1
  rw [← typeProbe, h] at hask
  cases answer <;> simp only [type, hask, Except.toOption] <;> rfl

theorem value_eq_bind (htext : p.source.forValue? t expression = some text) :
    (p.value t expression s).1 = (p.valueProbe text s).toOption.bind (decode t) := by
  rw [value_eq htext, (ask_eq ..).1, ← valueProbe]

theorem decode_eq_none_iff (ht : t ≠ .other) :
    decode t r = none ↔ t = .string ∧ r.string = none := by
  have hsome := isSome_decode (r := r) ht
  rw [← Option.not_isSome_iff_eq_none, hsome, Classical.not_imp, not_not]

end Answers

/-- The call finds nothing.  No value is looked for at `other`. -/
def Call.Unanswered (p : Prober τ) : Call → RunState τ → Prop
  | type expression, s => (p.type expression s).1 = .other
  | value t expression, s => t ≠ .other ∧ (p.value t expression s).1 = none

/-- Every stage of the call's probe succeeds, but what its function returns is of no use: a null
pointer, or a text that spells no type. -/
def Call.Mute (p : Prober τ) : Call → RunState τ → Prop
  | type expression, s => ∃ answer, p.typeProbe expression s = .ok answer ∧
      ∀ tag, answer = some tag →
        ∀ t : TypeTag, t ≠ .other → tag.beforeNul.trim Bytes.isSpace ≠ t.name
  | value t expression, s => t = .string ∧ ∃ text r, p.source.forValue? t expression = some text ∧
      p.valueProbe text s = .ok r ∧ r.string = none

/-- A call is mute only if its probe has no failure. -/
theorem Call.Mute.failure?_eq_none (h : call.Mute p s) : call.failure? p s = none := by
  cases call with
  | type expression =>
    obtain ⟨answer, hanswer, -⟩ := h
    exact ProbeFailure.of?_eq_none_iff.2 ⟨answer, hanswer⟩
  | value t expression =>
    obtain ⟨-, text, r, htext, hr, -⟩ := h
    rw [failure?, htext]
    exact ProbeFailure.of?_eq_none_iff.2 ⟨r, hr⟩

/-- A call finds nothing exactly if its probe fails or it is mute. -/
theorem Call.unanswered_iff :
    call.Unanswered p s ↔ (∃ f, call.failure? p s = some f) ∨ call.Mute p s := by
  cases call with
  | type expression =>
    simp only [Unanswered, Mute, failure?, ProbeFailure.of?_eq_some_iff]
    cases hprobe : p.typeProbe expression s with
    | error f => simp [type_of_error hprobe]
    | ok answer =>
      rw [type_of_ok hprobe]
      cases answer with
      | none => simp
      | some tag => simp [TypeTag.ofAnswer_eq_other_iff]
  | value t expression =>
    by_cases ht : t = .other
    · have hnone : p.source.forValue? .other expression = none := rfl
      simp [Unanswered, Mute, failure?, ht, hnone]
    · obtain ⟨text, htext⟩ := p.exists_forValue ht expression
      simp only [Unanswered, Mute, failure?, htext, Option.bind_some,
        ProbeFailure.of?_eq_some_iff, value_eq_bind htext]
      cases hprobe : p.valueProbe text s with
      | error f => simp [ht, Except.toOption]
      | ok r =>
        simp [ht, Except.toOption, decode_eq_none_iff ht, hprobe]

/-! ### What is explained -/

/-- The call is explained: if it finds nothing then by one note, which concerns the run as a whole,
and if it finds something then nothing is recorded. -/
def Call.Explained (p : Prober τ) (call : Call) (s : RunState τ) : Prop :=
  (call.Unanswered p s → ∃ n : Finding, n.level = .note ∧ n.file = none ∧ n.line = 0 ∧
      (call.after p s).diagnostics.recorded = s.diagnostics.recorded ++ [n]) ∧
    (¬ call.Unanswered p s → (call.after p s).diagnostics.recorded = s.diagnostics.recorded)

theorem recorded_of_failure?_eq_none (h : call.failure? p s = none) :
    (call.after p s).diagnostics.recorded = s.diagnostics.recorded := by
  rw [recorded_call, h, Option.toList_none, notes_nil, List.append_nil]

theorem recorded_of_not_reports (hp : p.reports = false) :
    (call.after p s).diagnostics.recorded = s.diagnostics.recorded := by
  rw [recorded_call, notes, hp]
  exact List.append_nil _

theorem explained_iff (hp : p.reports = true) : call.Explained p s ↔ ¬ call.Mute p s := by
  constructor
  · intro h hmute
    -- a mute call finds nothing and has no failure that could be noted
    obtain ⟨n, -, -, -, hnote⟩ := h.1 (Call.unanswered_iff.2 (.inr hmute))
    rw [recorded_of_failure?_eq_none hmute.failure?_eq_none] at hnote
    exact absurd hnote (by simp)
  · intro hmute
    refine ⟨fun h => ?_, fun h => ?_⟩
    · obtain ⟨f, hf⟩ := (Call.unanswered_iff.1 h).resolve_right hmute
      have hnotes : p.notes [f] = [f.finding] := if_pos hp
      refine ⟨f.finding, rfl, rfl, rfl, ?_⟩
      rw [recorded_call, hf, Option.toList_some, hnotes]
    · refine recorded_of_failure?_eq_none (Option.eq_none_iff_forall_ne_some.2 fun f hf => h ?_)
      exact Call.unanswered_iff.2 (.inl ⟨f, hf⟩)

/-- **Which calls are explained.**  After any calls, and whatever the host does: they have recorded
a note for each failure of a probe, in order, and nothing else.  If failures are reported, the next
call is explained exactly if it is not mute; a mute call finds nothing and records nothing.  If they
are not reported, nothing is ever recorded. -/
theorem explained_calls (p : Prober τ) (s : RunState τ) (calls : List Call) (call : Call) :
    (p.after calls s).diagnostics.recorded =
        s.diagnostics.recorded ++ p.notes (p.failures calls s) ∧
      (p.reports = true →
        (call.Explained p (p.after calls s) ↔ ¬ call.Mute p (p.after calls s))) ∧
      (call.Mute p (p.after calls s) → call.Unanswered p (p.after calls s) ∧
        (call.after p (p.after calls s)).diagnostics.recorded =
          (p.after calls s).diagnostics.recorded) ∧
      (p.reports = false →
        (call.after p (p.after calls s)).diagnostics.recorded = s.diagnostics.recorded) := by
  have hcalls := recorded_after p calls s
  refine ⟨hcalls, explained_iff, fun hmute => ?_, fun hp => ?_⟩
  · exact ⟨Call.unanswered_iff.2 (.inr hmute),
      recorded_of_failure?_eq_none hmute.failure?_eq_none⟩
  · rw [recorded_of_not_reports hp, hcalls, notes, hp]
    exact List.append_nil _

/-- A prober that reports failures. -/
def talkative : Prober Script :=
  { rehearsed with config := { rehearsed.config with verbose := true } }

/-- A script of one module, whose function returns a null pointer for a string. -/
def nullString : RunState Script where
  host := { results := [{ built := some (.shared { valueFunction := some {} }) }] }

/-- A string that is a null pointer is no value, and no note says why. -/
theorem not_explained_nullString :
    talkative.reports = true ∧
      ¬ Call.Explained talkative (.value .string (bytes "NAME")) nullString := by
  refine ⟨rfl, fun h => ?_⟩
  refine (explained_iff rfl).1 h ⟨rfl, _, {}, rfl, ?_, rfl⟩
  rfl

end Prober

end MacroConstants
