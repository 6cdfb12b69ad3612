import MacroConstants.Proofs.Discovery

/-!
# What a name filter changes

The filter is applied to the definitions of a dump before the first of each name is taken and before
literals are read.  Whether a definition is kept depends on its name alone, so all definitions of a
name are kept or none is, and it is the same to filter at the end.

* `Dump.definitions_eq_filter` : the definitions that are kept, as a part of all of them.
* `Definition.filter_firsts_repeats` : filtering before the first of each name is taken, and after.
* `Discovery.keeping`, `Discovery.repeated` : a discovery with another filter, and the definitions
  of a dump that it warns about.
* `Discovery.run_restricts` : **a filter restricts the constants and the warnings about repeated
  definitions, and changes nothing else.**
-/

namespace MacroConstants

namespace Dump

theorem definition?_eq_filter (keep : Selector) (x : Line × UInt32) :
    definition? keep x = (definition? Selector.all x).filter (keep ·.name) := by
  obtain ⟨line, number⟩ := x
  cases line with
  | object name text =>
    simp only [definition?, Selector.all, if_true, Option.filter_some]
  | _ => rfl

theorem definitions_eq_filter (keep : Selector) (text : Bytes) :
    definitions keep text = (definitions Selector.all text).filter (keep ·.name) := by
  unfold definitions
  rw [List.filter_filterMap]
  exact List.filterMap_congr fun x _ => definition?_eq_filter keep x

end Dump

namespace Definition

variable {keep : Selector} {taken taken' : List Bytes}

/-- The names that are taken agree as far as names are kept. -/
def Agree (keep : Selector) (taken taken' : List Bytes) : Prop :=
  ∀ name, keep name = true → (name ∈ taken' ↔ name ∈ taken)

theorem Agree.concat (h : Agree keep taken taken') (name : Bytes) :
    Agree keep (taken ++ [name]) (taken' ++ [name]) := by
  intro other hkeep
  rw [List.mem_append, List.mem_append, h other hkeep]

/-- A name that is not kept may be taken or not. -/
theorem Agree.concat_of_not (h : Agree keep taken taken') {name : Bytes}
    (hname : keep name = false) : Agree keep (taken ++ [name]) taken' := by
  intro other hkeep
  have hne : other ≠ name := by
    rintro rfl
    exact Bool.false_ne_true (hname.symm.trans hkeep)
  rw [List.mem_append, List.mem_singleton, or_iff_left hne, h other hkeep]

/-- Taking the first definitions of those that are kept leaves what is kept of the first ones, and
of the later ones. -/
theorem filter_firsts_repeats (h : Agree keep taken taken') (ds : List Definition) :
    firsts taken' (ds.filter (keep ·.name)) = (firsts taken ds).filter (keep ·.name) ∧
      repeats taken' (ds.filter (keep ·.name)) = (repeats taken ds).filter (keep ·.name) := by
  induction ds generalizing taken taken' with
  | nil => exact ⟨rfl, rfl⟩
  | cons d ds ih =>
    by_cases hd : keep d.name = true
    · have hcons : ∀ xs, (d :: xs).filter (keep ·.name) = d :: xs.filter (keep ·.name) :=
        fun _ => List.filter_cons_of_pos hd
      have hiff := h d.name hd
      by_cases htaken : d.name ∈ taken
      · obtain ⟨hfirsts, hrepeats⟩ := ih h
        simp only [hcons, firsts, repeats, htaken, hiff.2 htaken, if_true, hfirsts, hrepeats,
          and_self]
      · obtain ⟨hfirsts, hrepeats⟩ := ih (h.concat d.name)
        simp only [hcons, firsts, repeats, htaken, mt hiff.1 htaken, if_false, hfirsts, hrepeats,
          and_self]
    · -- a definition that is not kept is dropped on both sides
      have hcons : ∀ xs, (d :: xs).filter (keep ·.name) = xs.filter (keep ·.name) :=
        fun _ => List.filter_cons_of_neg hd
      by_cases htaken : d.name ∈ taken
      · obtain ⟨hfirsts, hrepeats⟩ := ih h
        simp only [hcons, firsts, repeats, htaken, if_true, hfirsts, hrepeats, and_self]
      · obtain ⟨hfirsts, hrepeats⟩ := ih (h.concat_of_not (by simpa using hd))
        simp only [hcons, firsts, repeats, htaken, if_false, hfirsts, hrepeats, and_self]

end Definition

/-- A usable configuration can be used with every filter. -/
theorem Configuration.check_of_check {c : Configuration} {keep : Selector}
    (h : c.check = .ok keep) (keep' : Selector) :
    Configuration.check { c with filter := some keep' } = .ok keep' := by
  unfold check at h ⊢
  dsimp only
  split at h
  · cases h
  · cases h
  · rfl

namespace Discovery

variable {τ : Type}

/-- The same discovery with another filter. -/
def keeping (d : Discovery) (keep : Selector) : Discovery where
  config := { d.config with filter := some keep }
  keep := keep
  usable := Configuration.check_of_check d.usable keep

/-- The preprocessor knows nothing of the filter. -/
theorem dump_keeping (d : Discovery) (keep : Selector) (h : Host τ) (s : RunState τ) :
    dump h (d.keeping keep).config s = dump h d.config s := rfl

theorem run_of_dump {d : Discovery} {h : Host τ} {s s₁ : RunState τ} {text : Bytes}
    (hdump : dump h d.config s = (.ok text, s₁)) :
    d.run h s = (.ok (ofDump d.keep text).1, s₁.reportAll (ofDump d.keep text).2) := by
  unfold run
  rw [hdump]

theorem run_of_dump_error {d : Discovery} {h : Host τ} {s s₁ : RunState τ} {fault : Fault}
    (hdump : dump h d.config s = (.error fault, s₁)) : d.run h s = (.error fault, s₁) := by
  unfold run
  rw [hdump]

/-- The constants of a run are those of some dump. -/
theorem exists_ofDump_of_run {d : Discovery} {h : Host τ} {s s₁ : RunState τ} {k : Catalog}
    (hrun : d.run h s = (.ok k, s₁)) : ∃ text, k = (ofDump d.keep text).1 := by
  unfold run at hrun
  split at hrun
  · cases hrun
  · rename_i text s₂ hdump
    exact ⟨text, (Except.ok.inj (Prod.mk.inj hrun).1).symm⟩

/-- The definitions of a dump that repeat a name, in order. -/
def repeated (keep : Selector) (text : Bytes) : List Definition :=
  Definition.repeats [] (Dump.definitions keep text)

theorem items_ofDump (keep : Selector) (text : Bytes) :
    (ofDump keep text).1.items =
      (Definition.firsts [] (Dump.definitions keep text)).map Definition.constant :=
  (Catalog.addDefinitions_eq (Dump.definitions keep text) {}).1

theorem findings_ofDump (keep : Selector) (text : Bytes) :
    (ofDump keep text).2 =
      Dump.warnings text ++ (repeated keep text).map Definition.duplicateWarning :=
  congrArg (fun ds : List Definition => Dump.warnings text ++ ds.map Definition.duplicateWarning)
    (Catalog.addDefinitions_eq (Dump.definitions keep text) {}).2

theorem repeated_eq_filter (keep : Selector) (text : Bytes) :
    repeated keep text = (repeated Selector.all text).filter (keep ·.name) := by
  unfold repeated
  rw [Dump.definitions_eq_filter]
  exact (Definition.filter_firsts_repeats (fun _ _ => Iff.rfl) _).2

theorem items_ofDump_eq_filter (keep : Selector) (text : Bytes) :
    (ofDump keep text).1.items = (ofDump Selector.all text).1.items.filter (keep ·.name) := by
  have hname : (fun c : Constant => keep c.name) ∘ Definition.constant =
      fun d : Definition => keep d.name := funext fun d => by simp
  rw [items_ofDump, items_ofDump, Dump.definitions_eq_filter,
    (Definition.filter_firsts_repeats (fun _ _ => Iff.rfl) _).1, List.filter_map, hname]

/-- **What a filter changes.**  Two runs that differ in the filter alone, one of them keeping every
name, read the same dump from the same host.  If there is none, both end with the same fault in the
same state.  If there is one, the constants of the filtered run are those of the other whose names
are kept, in the same order and just as much settled; both report the same unreadable lines, and the
filtered run then reports those repeated definitions of the other whose names are kept. -/
theorem run_restricts (d : Discovery) (h : Host τ) (s : RunState τ) :
    match dump h d.config s with
    | (.error fault, s₁) =>
      (d.keeping Selector.all).run h s = (.error fault, s₁) ∧ d.run h s = (.error fault, s₁)
    | (.ok text, s₁) => ∃ whole part : Catalog,
      (d.keeping Selector.all).run h s = (.ok whole, s₁.reportAll
        (Dump.warnings text ++
          (repeated Selector.all text).map Definition.duplicateWarning)) ∧
      d.run h s = (.ok part, s₁.reportAll
        (Dump.warnings text ++
          ((repeated Selector.all text).filter (d.keep ·.name)).map
            Definition.duplicateWarning)) ∧
      part.items = whole.items.filter (d.keep ·.name) := by
  have hall := d.dump_keeping Selector.all h s
  split
  · rename_i fault s₁ hdump
    exact ⟨run_of_dump_error (hall.trans hdump), run_of_dump_error hdump⟩
  · rename_i text s₁ hdump
    refine ⟨(ofDump Selector.all text).1, (ofDump d.keep text).1, ?_, ?_,
      items_ofDump_eq_filter d.keep text⟩
    · rw [← findings_ofDump]
      exact run_of_dump (hall.trans hdump)
    · rw [← repeated_eq_filter, ← findings_ofDump]
      exact run_of_dump hdump

end Discovery

end MacroConstants
