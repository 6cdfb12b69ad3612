import MacroConstants.RunState

/-!
# The steps of a run

What a step does follows from what the host decides.  Making, writing and removing temporary files
and running commands record no findings; reporting findings appends them in order.
-/

namespace MacroConstants

namespace RunState

variable {τ α : Type} (h : Host τ) (s : RunState τ)

@[simp] theorem diagnostics_step (act : τ → α × τ) :
    (s.step act).2.diagnostics = s.diagnostics := rfl

@[simp] theorem diagnostics_create (stem ending : Bytes) (e : Entry) :
    (s.create h stem ending e).2.diagnostics = s.diagnostics := by
  unfold create
  split
  · rename_i reason s' hstep
    rw [← diagnostics_step s h.unique, hstep]
  · rename_i unique s' hstep
    rw [← diagnostics_step s h.unique, hstep]
    dsimp only
    split <;> rfl

@[simp] theorem diagnostics_createFile (stem suffix : Bytes) :
    (s.createFile h stem suffix).2.diagnostics = s.diagnostics := diagnostics_create ..

@[simp] theorem diagnostics_write (entry path text : Bytes) :
    (s.write h entry path text).2.diagnostics = s.diagnostics := by
  unfold write
  split <;> rename_i s' hstep <;> rw [← diagnostics_step s (h.write text), hstep]

@[simp] theorem diagnostics_remove (path : Bytes) :
    (s.remove path).diagnostics = s.diagnostics := rfl

@[simp] theorem diagnostics_invoke (argv : List Bytes) (source : Bytes) :
    (s.invoke h argv source).2.diagnostics = s.diagnostics := rfl

@[simp] theorem recorded_reportAll (ds : List Finding) :
    (s.reportAll ds).diagnostics.recorded = s.diagnostics.recorded ++ ds := by
  induction ds generalizing s with
  | nil => simp [reportAll]
  | cons d ds ih =>
    have hd : (s.report d).diagnostics.recorded = s.diagnostics.recorded ++ [d] := rfl
    rw [reportAll, List.foldl_cons, ← reportAll, ih, hd, List.append_assoc, List.singleton_append]

@[simp] theorem files_reportAll (ds : List Finding) : (s.reportAll ds).files = s.files := by
  induction ds generalizing s with
  | nil => rfl
  | cons d ds ih => exact ih (s.report d)

@[simp] theorem invocations_reportAll (ds : List Finding) :
    (s.reportAll ds).invocations = s.invocations := by
  induction ds generalizing s with
  | nil => rfl
  | cons d ds ih => exact ih (s.report d)

@[simp] theorem invocations_createFile (stem suffix : Bytes) :
    (s.createFile h stem suffix).2.invocations = s.invocations := by
  have hstep : (s.step h.unique).2.invocations = s.invocations := rfl
  unfold createFile create
  split
  · rename_i heq
    rwa [heq] at hstep
  · rename_i heq
    rw [heq] at hstep
    dsimp only
    split <;> exact hstep

@[simp] theorem invocations_write (entry path text : Bytes) :
    (s.write h entry path text).2.invocations = s.invocations := by
  have hstep : (s.step (h.write text)).2.invocations = s.invocations := rfl
  unfold write
  split <;> rename_i heq <;> rw [heq] at hstep <;> exact hstep

/-! ### What the host decides -/

variable {h s} {t : τ} {stem ending unique path entry text reason : Bytes} {e : Entry}

theorem taken_eq_false_iff : s.taken path = false ↔ ∀ x ∈ s.files, x.1 ≠ path := by
  simp [taken]

theorem create_of_refused (hunique : h.unique s.host = (.error reason, t)) :
    s.create h stem ending e = (.error reason, { s with host := t }) := by
  simp only [create, step, hunique]

theorem create_of_taken (hunique : h.unique s.host = (.ok unique, t))
    (htaken : s.taken (uniquePath h stem unique ending) = true) :
    s.create h stem ending e = (.error (bytes "File exists"), { s with host := t }) := by
  simp only [create, step, hunique]
  exact if_pos htaken

theorem create_of_free (hunique : h.unique s.host = (.ok unique, t))
    (hfree : s.taken (uniquePath h stem unique ending) = false) :
    s.create h stem ending e =
      (.ok (uniquePath h stem unique ending),
        { s with
          host := t
          files := s.files.create (uniquePath h stem unique ending) e }) := by
  simp only [create, step, hunique]
  exact if_neg (Bool.eq_false_iff.1 hfree)

/-- What it is to close a directory and to write to a file: the host is asked, and an entry is
changed if it lets that happen. -/
def touch (act : τ → Option Bytes × τ) (path : Bytes) (f : Entry → Entry) (s : RunState τ) :
    Option Bytes × RunState τ :=
  match s.step act with
  | (some reason, s) => (some reason, s)
  | (none, s) => (none, { s with files := s.files.modify path f })

theorem restrict_eq_touch : s.restrict h path = s.touch h.restrict path Entry.restrict := rfl

theorem write_eq_touch :
    s.write h entry path text = s.touch (h.write text) entry (Entry.put path (.text text)) := rfl

section Touching

variable {act : τ → Option Bytes × τ} {f : Entry → Entry}

theorem touch_of_some (hact : act s.host = (some reason, t)) :
    s.touch act path f = (some reason, { s with host := t }) := by
  simp only [touch, step, hact]

theorem touch_of_none (hact : act s.host = (none, t)) :
    s.touch act path f = (none, { s with host := t, files := s.files.modify path f }) := by
  simp only [touch, step, hact]

end Touching

theorem restrict_of_some (hrestrict : h.restrict s.host = (some reason, t)) :
    s.restrict h path = (some reason, { s with host := t }) :=
  restrict_eq_touch.trans (touch_of_some hrestrict)

theorem restrict_of_none (hrestrict : h.restrict s.host = (none, t)) :
    s.restrict h path =
      (none, { s with host := t, files := s.files.modify path Entry.restrict }) :=
  restrict_eq_touch.trans (touch_of_none hrestrict)

theorem write_of_some (hwrite : h.write text s.host = (some reason, t)) :
    s.write h entry path text = (some reason, { s with host := t }) :=
  write_eq_touch.trans (touch_of_some hwrite)

theorem write_of_none (hwrite : h.write text s.host = (none, t)) :
    s.write h entry path text =
      (none, { s with
        host := t
        files := s.files.modify entry (Entry.put path (.text text)) }) :=
  write_eq_touch.trans (touch_of_none hwrite)

end RunState

end MacroConstants
