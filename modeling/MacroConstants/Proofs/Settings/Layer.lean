import MacroConstants.Proofs.Settings.Sequence

/-!
# What a settings text gives

A settings text that is accepted gives some settings and leaves the others open, whatever was
configured before.

* `Settings.Layer` : settings that may be given, and `Settings.Layer.over` their effect.
* `Settings.Layer.Of` : the settings that lines give, which are those of the last line of each key.
* `Configuration.load_eq_none_iff_over` : **an accepted text lays what its lines give over the
  configuration.**
-/

namespace MacroConstants

namespace Settings

/-- Settings, each of which may be given or left open. -/
structure Layer where
  headers : Option (List Bytes) := none
  language : Option Language := none
  compiler : Option (List Bytes) := none
  dumpFlags : Option (List Bytes) := none
  flags : Option (List Bytes) := none
  extraFlags : Option (List Bytes) := none
  filter : Option Selector := none
  verbose : Option Bool := none

/-- The configuration with the settings that are given in place of its own. -/
def Layer.over (f : Layer) (c : Configuration) : Configuration where
  headers := f.headers.getD c.headers
  language := f.language.getD c.language
  compiler := f.compiler.getD c.compiler
  dumpFlags := f.dumpFlags.or c.dumpFlags
  flags := f.flags.getD c.flags
  extraFlags := f.extraFlags.getD c.extraFlags
  filter := f.filter.or c.filter
  verbose := f.verbose.getD c.verbose

/-- The layer gives what the lines give: over any configuration it sets a key to the value on the
last line that gives it, and leaves it alone if no line does. -/
structure Layer.Of [PatternEngine] (lines : List Bytes) (f : Layer) : Prop where
  last : ∀ e, LastEntry lines e → ∀ c, e.Holds (f.over c)
  unset : ∀ k, (∀ line ∈ lines, ¬ Gives line k) → ∀ c, k.Same c (f.over c)

variable [PatternEngine] {line : Bytes} {lines : List Bytes} {e e' : KeyValue} {f : Layer}
  {statements : List Statement}

/-- All entries that a line may be said to state have the same effect. -/
theorem apply_unique (h : States line (.setting e)) (h' : States line (.setting e'))
    (c : Configuration) : e.apply c = e'.apply c := by
  have hread := readLine_of_states rfl h
  rw [readLine_of_states rfl h'] at hread
  obtain ⟨hkey, hvalue⟩ : fullName e'.key.name = fullName e.key.name ∧ e'.value = e.value := by
    injection hread with hread
    injection hread with hkey hvalue
    exact ⟨hkey, hvalue⟩
  have hassign : c.assign [] ⟨fullName e.key.name, e.value, 0⟩ = .ok (e.apply c) :=
    Configuration.assign_eq_ok_iff.2 ⟨e, rfl, rfl, rfl⟩
  have hassign' : c.assign [] ⟨fullName e.key.name, e.value, 0⟩ = .ok (e'.apply c) :=
    Configuration.assign_eq_ok_iff.2 ⟨e', hkey.symm, hvalue.symm, rfl⟩
  exact Except.ok.inj (hassign.symm.trans hassign')

/-- The last entry of a key counts: the lines after it do not touch its field. -/
theorem LastEntry.holds (hlast : LastEntry lines e) (h : List.Forall₂ States lines statements)
    (c : Configuration) : e.Holds (Statement.applyAll statements c) := by
  induction h generalizing c with
  | nil =>
    obtain ⟨before, line, after, hlines, -⟩ := hlast
    cases before <;> cases hlines
  | cons hs hall ih =>
    rename_i line statement lines statements
    obtain ⟨before, line', after, hlines, hstates, hafter⟩ := hlast
    cases before with
    | cons b before =>
      obtain ⟨-, rfl⟩ := List.cons.inj hlines
      exact ih ⟨before, line', after, rfl, hstates, hafter⟩ (statement.apply c)
    | nil =>
      obtain ⟨rfl, rfl⟩ := List.cons.inj hlines
      obtain ⟨e', rfl, -⟩ := Gives.exists_eq ⟨e, hstates, rfl⟩ hs
      have hhere : e.Holds (e'.apply c) := by
        rw [← apply_unique hstates hs]
        exact e.holds_apply c
      rcases last_or_unset hall e.key with ⟨x, hkey, ⟨before, l, after, rfl, hl, -⟩, -⟩ | ⟨-, hsame⟩
      · exact absurd ⟨x, hl, hkey⟩ (hafter l (by simp))
      · exact hhere.of_same (hsame (e'.apply c))

/-- An entry adds its value to what is given. -/
theorem KeyValue.exists_over (e : KeyValue) (f : Layer) :
    ∃ f' : Layer, ∀ c, f'.over c = e.apply (f.over c) := by
  cases e with
  | headers items => exact ⟨{ f with headers := some items }, fun _ => rfl⟩
  | cc items => exact ⟨{ f with compiler := some items }, fun _ => rfl⟩
  | ppflags items => exact ⟨{ f with dumpFlags := some items }, fun _ => rfl⟩
  | cflags items => exact ⟨{ f with flags := some items }, fun _ => rfl⟩
  | extraCflags items => exact ⟨{ f with extraFlags := some items }, fun _ => rfl⟩
  | lang language => exact ⟨{ f with language := some language }, fun _ => rfl⟩
  | filter pattern keep accepted => exact ⟨{ f with filter := some keep }, fun _ => rfl⟩
  | verbose flag => exact ⟨{ f with verbose := some flag }, fun _ => rfl⟩

theorem exists_over_applyAll (statements : List Statement) (f : Layer) :
    ∃ f' : Layer, ∀ c, f'.over c = Statement.applyAll statements (f.over c) := by
  induction statements generalizing f with
  | nil => exact ⟨f, fun _ => rfl⟩
  | cons statement statements ih =>
    cases statement with
    | setting e =>
      obtain ⟨f', hf'⟩ := e.exists_over f
      obtain ⟨f'', hf''⟩ := ih f'
      exact ⟨f'', fun c => by rw [hf'', hf']; rfl⟩
    | _ => exact ih f

/-- What is given says all that the statements do. -/
theorem Layer.Of.over_eq (hf : f.Of lines) (h : List.Forall₂ States lines statements)
    (c : Configuration) : f.over c = Statement.applyAll statements c := by
  refine eq_of_same fun k => ?_
  rcases last_or_unset h k with ⟨e, rfl, hlast, hholds⟩ | ⟨hunset, hsame⟩
  · exact KeyValue.same_of_holds (hholds c) (hf.last e hlast c)
  · have hleft := hf.unset k hunset c
    have hright := hsame c
    cases k <;> exact Eq.trans hleft (Eq.symm hright)

theorem Layer.exists_of (h : List.Forall₂ States lines statements) : ∃ f : Layer, f.Of lines := by
  obtain ⟨f, hf⟩ := exists_over_applyAll statements {}
  have hover : ∀ c, f.over c = Statement.applyAll statements c := hf
  refine ⟨f, fun e hlast c => ?_, fun k hunset c => ?_⟩
  · rw [hover]
    exact hlast.holds h c
  · rw [hover]
    rcases last_or_unset h k with ⟨e, rfl, ⟨before, l, after, rfl, hl, -⟩, -⟩ | ⟨-, hsame⟩
    · exact absurd ⟨e, hl, rfl⟩ (hunset l (by simp))
    · exact hsame c

end Settings

namespace Configuration

open Settings

/-- **A settings text is accepted into any configuration or into none, and lays what its lines give
over it.** -/
theorem load_eq_none_iff_over [PatternEngine] {source text : Bytes} {c c' : Configuration} :
    c.load source text = (c', none) ↔
      Accepted text ∧ ∃ f : Layer, f.Of text.lines ∧ c' = f.over c := by
  rw [accepted_iff, load_eq_none_iff]
  constructor
  · rintro ⟨statements, h, rfl⟩
    obtain ⟨f, hf⟩ := Layer.exists_of h.lines
    exact ⟨⟨statements, h⟩, f, hf, (hf.over_eq h.lines c).symm⟩
  · rintro ⟨⟨statements, h⟩, f, hf, rfl⟩
    exact ⟨statements, h, hf.over_eq h.lines c⟩

end Configuration

end MacroConstants
