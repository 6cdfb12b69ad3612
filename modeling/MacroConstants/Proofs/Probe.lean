import MacroConstants.Host.Scripted
import MacroConstants.Probe
import MacroConstants.Proofs.Json.Number
import MacroConstants.Proofs.RunState
import MacroConstants.Proofs.TemporaryFiles

/-!
# What a probe answers

A probe goes through its stages one after the other: a directory of its own, a source file, the
compiler, the loader, the function.  It answers exactly if all of them succeed, and the compiler is
run at most once, on just the text of the probe.

* `Probe.Opened`, `Probe.Prepared` : the stages before the compiler is run.
* `Probe.Answers` : every stage succeeds and the function answers.
* `Probe.withDirectory_of_opened`, `Probe.withDirectory_of_not_opened` : the directory is gone
  afterwards, whatever happens in it.
* `Probe.run_of_prepared`, `Probe.run_of_not_prepared` : **all that a probe does to a state**.
* `Probe.run_eq_ok_iff` : when a probe answers.
* `Prober.calls_answer` : **what the calls of a prober answer and what they run**, after any calls.
-/

namespace MacroConstants

variable {τ α : Type}

/-- The names that a host gives have no slash. -/
def Host.PlainNames (h : Host τ) : Prop := ∀ t name, (h.unique t).1 = .ok name → ascii '/' ∉ name

/-- The names that a scripted host gives are numerals. -/
theorem Host.plainNames_scripted (temporary : Bytes) (process : ℕ) (loaderError : Option Bytes) :
    (Host.scripted temporary process loaderError).PlainNames := by
  intro t name hname
  change (Script.unique t).1 = .ok name at hname
  unfold Script.unique at hname
  split at hname
  · cases hname
  · rw [← Except.ok.inj hname]
    exact Numeral.slash_notMem_decimal _

namespace Probe

variable {h : Host τ} {config : Configuration} {stem text symbol unique : Bytes}
  {function : Bytes → SharedObject → Option α} {s : RunState τ} {t t' : τ} {response : Response}

/-! ### Stages -/

/-- The directory of a probe, by the unique part of its name. -/
def directory (h : Host τ) (unique : Bytes) : Bytes :=
  RunState.uniquePath h (bytes "cmacros-probe") unique []

/-- The path of the files of the next probe, without their suffixes. -/
def nextBase (h : Host τ) (stem : Bytes) (s : RunState τ) (unique : Bytes) : Bytes :=
  base h (directory h unique) stem (s.probes + 1)

/-- The source file of the next probe. -/
def sourcePath (h : Host τ) (config : Configuration) (stem : Bytes) (s : RunState τ)
    (unique : Bytes) : Bytes :=
  nextBase h stem s unique ++ bytes "." ++ config.language.suffix

/-- The module of the next probe. -/
def modulePath (h : Host τ) (stem : Bytes) (s : RunState τ) (unique : Bytes) : Bytes :=
  nextBase h stem s unique ++ bytes ".so"

/-- The command of the next probe: its directory holds the source file, and is closed to others. -/
def invocation (h : Host τ) (config : Configuration) (stem text : Bytes) (s : RunState τ)
    (unique : Bytes) : Invocation where
  argv := config.probeCommand (sourcePath h config stem s unique) (modulePath h stem s unique)
  source := sourcePath h config stem s unique
  files := s.files.create (directory h unique)
    (.directory true [(sourcePath h config stem s unique, .text text)])

/-- A directory is made, with a name that is not taken, and closed to others. -/
structure Opened (h : Host τ) (s : RunState τ) (unique : Bytes) (t : τ) : Prop where
  free : s.taken (directory h unique) = false
  steps : ∃ t₁, h.unique s.host = (.ok unique, t₁) ∧ h.restrict t₁ = (none, t)

/-- A directory is made and the source file is written. -/
def Prepared (h : Host τ) (text : Bytes) (s : RunState τ) (unique : Bytes) (t : τ) : Prop :=
  ∃ t₁, Opened h s unique t₁ ∧ h.write text t₁ = (none, t)

/-- Every stage of a probe succeeds: the command exits well, what it left at the module's path can
be loaded, and the module has the function, which answers. -/
inductive Answers (h : Host τ) (config : Configuration) (stem text : Bytes)
    (function : SharedObject → Option α) (s : RunState τ) (answer : α) : Prop
  | intro {unique : Bytes} {t t' : τ} {response : Response} {object : SharedObject} :
      Prepared h text s unique t →
      h.invoke (invocation h config stem text s unique) t = (response, t') →
      response.result.ok = true →
      response.left? (modulePath h stem s unique) = some (.shared object) →
      function object = some answer → Answers h config stem text function s answer

theorem prepared_or (h : Host τ) (text : Bytes) (s : RunState τ) :
    (∃ unique t, Prepared h text s unique t) ∨ ∀ unique t, ¬ Prepared h text s unique t := by
  simpa only [not_exists] using Classical.em (∃ unique t, Prepared h text s unique t)

/-! ### The directory -/

theorem withDirectory_of_opened (ho : Opened h s unique t)
    (body : Bytes → RunState τ → Except ProbeFailure α × RunState τ) :
    withDirectory h body s =
      let r := body (directory h unique)
        { s with host := t, files := s.files.create (directory h unique) (.directory true []) }
      (r.1, r.2.remove (directory h unique)) := by
  obtain ⟨hfree, t₁, hunique, hrestrict⟩ := ho
  have hclosed :
      (s.files.create (directory h unique) (.directory false [])).modify (directory h unique)
        Entry.restrict = s.files.create (directory h unique) (.directory true []) :=
    TemporaryFiles.modify_create (RunState.taken_eq_false_iff.1 hfree) Entry.restrict
  unfold withDirectory RunState.createDirectory
  rw [RunState.create_of_free hunique hfree]
  dsimp only
  rw [RunState.restrict_of_none hrestrict]
  dsimp only
  rw [← directory, hclosed]

/-- Without a directory nothing is done, and one that cannot be closed is gone again. -/
theorem withDirectory_of_not_opened (hno : ∀ unique t, ¬ Opened h s unique t)
    (body : Bytes → RunState τ → Except ProbeFailure α × RunState τ) :
    ∃ reason t, withDirectory h body s = (.error (.directory reason), { s with host := t }) := by
  unfold withDirectory RunState.createDirectory
  cases hunique : h.unique s.host with
  | mk name t₁ =>
    cases name with
    | error reason =>
      rw [RunState.create_of_refused hunique]
      exact ⟨reason, t₁, rfl⟩
    | ok unique =>
      cases hfree : s.taken (directory h unique) with
      | true =>
        rw [RunState.create_of_taken hunique hfree]
        exact ⟨_, t₁, rfl⟩
      | false =>
        rw [RunState.create_of_free hunique hfree]
        dsimp only
        cases hrestrict : h.restrict t₁ with
        | mk refusal t₂ =>
          cases refusal with
          | none => exact absurd ⟨hfree, t₁, hunique, hrestrict⟩ (hno unique t₂)
          | some reason =>
            -- the directory was made, so it has to be removed
            rw [RunState.restrict_of_some hrestrict]
            dsimp only [RunState.remove]
            rw [← directory, TemporaryFiles.remove_create (RunState.taken_eq_false_iff.1 hfree)]
            exact ⟨reason, t₂, rfl⟩

/-! ### The run -/

theorem load_spec (h : Host τ) (path symbol : Bytes) (function : Bytes → SharedObject → Option α)
    (s : RunState τ) :
    ∃ result t, load h path symbol function s = (result, { s with host := t }) ∧
      ∀ answer, result = .ok answer ↔
        ∃ object, s.files.read? path = some (.shared object) ∧
          function symbol object = some answer := by
  unfold load
  split
  · rename_i object hread
    split
    · rename_i answer hanswer
      exact ⟨_, s.host, rfl, by simp [hread, hanswer]⟩
    · rename_i hnone
      exact ⟨_, (h.loaderError s.host).2, rfl, by simp [hread, hnone]⟩
  · rename_i hread
    refine ⟨_, (h.loaderError s.host).2, rfl, fun answer => ?_⟩
    simpa using fun object hobject => absurd hobject (hread object)

/-- What the compiler leaves is put into the directory. -/
theorem build_spec {files : TemporaryFiles} {directory source : Bytes} {argv : List Bytes}
    {e : Entry} (hfree : ∀ x ∈ files, x.1 ≠ directory) (hs : s.files = files.create directory e)
    (hinvoke : h.invoke ⟨argv, source, s.files⟩ s.host = (response, t)) :
    build h directory argv source s = (response.result, { s with
      host := t
      files := files.create directory (e.putAll response.leaves)
      invocations := s.invocations ++ [⟨argv, source, s.files⟩]
      console := s.console ++ response.shown }) := by
  have hleft := TemporaryFiles.foldl_modify_create (e := e) hfree response.leaves
  rw [← hs] at hleft
  simp only [build, RunState.invoke, RunState.step, hinvoke, RunState.say, hleft]

/-- What a probe does if its source file is written. -/
theorem run_of_prepared (hp : Prepared h text s unique t)
    (hinvoke : h.invoke (invocation h config stem text s unique) t = (response, t')) :
    ∃ result t'', run h config stem text symbol function s =
        (result, { s with
          host := t''
          probes := s.probes + 1
          invocations := s.invocations ++ [invocation h config stem text s unique]
          console := s.console ++ response.shown }) ∧
      ∀ answer, result = .ok answer ↔ response.result.ok = true ∧
        ∃ object, (s.files.create (directory h unique) ((Entry.directory true
              [(sourcePath h config stem s unique, .text text)]).putAll response.leaves)).read?
            (modulePath h stem s unique) = some (.shared object) ∧
          function symbol object = some answer := by
  obtain ⟨t₁, ho, hwrite⟩ := hp
  have hfree := RunState.taken_eq_false_iff.1 ho.free
  have hwritten : (s.files.create (directory h unique) (.directory true [])).modify
      (directory h unique) (Entry.put (sourcePath h config stem s unique) (.text text)) =
      (invocation h config stem text s unique).files := TemporaryFiles.modify_create hfree _
  unfold run
  rw [withDirectory_of_opened ho]
  dsimp only
  rw [RunState.write_of_none hwrite]
  dsimp only
  rw [← nextBase, ← sourcePath, ← modulePath, hwritten, build_spec hfree rfl hinvoke]
  dsimp only
  -- what the compiler left is looked at only if it exits well, and is removed either way
  split
  · rename_i hok
    obtain ⟨result, t'', hload, hanswer⟩ :=
      load_spec h (modulePath h stem s unique) symbol function _
    rw [hload]
    dsimp only [RunState.remove]
    rw [TemporaryFiles.remove_create hfree]
    exact ⟨result, t'', rfl, fun answer => (hanswer answer).trans (and_iff_right hok).symm⟩
  · rename_i hok
    dsimp only [RunState.remove]
    rw [TemporaryFiles.remove_create hfree]
    exact ⟨_, t', rfl, fun answer => by simp [hok]⟩

/-- What a probe does if its source file is not written. -/
theorem run_of_not_prepared (hno : ∀ unique t, ¬ Prepared h text s unique t) :
    ∃ failure t probes, run h config stem text symbol function s =
      (.error failure, { s with host := t, probes }) := by
  unfold run
  by_cases ho : ∃ unique t, Opened h s unique t
  · obtain ⟨unique, t₁, ho⟩ := ho
    have hfree := RunState.taken_eq_false_iff.1 ho.free
    rw [withDirectory_of_opened ho]
    dsimp only
    cases hwrite : h.write text t₁ with
    | mk refusal t₂ =>
      cases refusal with
      | none => exact absurd ⟨t₁, ho, hwrite⟩ (hno unique t₂)
      | some reason =>
        rw [RunState.write_of_some hwrite]
        dsimp only [RunState.remove]
        rw [TemporaryFiles.remove_create hfree]
        exact ⟨_, t₂, s.probes + 1, rfl⟩
  · simp only [not_exists] at ho
    obtain ⟨reason, t, hrun⟩ := withDirectory_of_not_opened ho _
    exact ⟨.directory reason, t, s.probes, hrun⟩

/-! ### When a probe answers -/

theorem directory_eq (h : Host τ) (unique : Bytes) :
    directory h unique = h.temporary ++ bytes "/" ++ (bytes "cmacros-probe-" ++ unique) := by
  have hname : bytes "cmacros-probe-" = bytes "cmacros-probe" ++ bytes "-" := by decide
  simp [directory, RunState.uniquePath, hname]

/-- The files of a probe lie in its directory. -/
theorem base_eq (h : Host τ) (directory stem : Bytes) (number : UInt64) :
    ∃ name, base h directory stem number = directory ++ bytes "/" ++ name := by
  refine ⟨stem ++ bytes "-" ++ Numeral.decimal h.process ++ bytes "-" ++
    Numeral.decimal number.toNat, ?_⟩
  simp [base]

section Created

variable {files : TemporaryFiles} (hplaced : files.Placed h.temporary) (hname : ascii '/' ∉ unique)
  (hfree : ∀ x ∈ files, x.1 ≠ directory h unique)
include hplaced hname hfree

/-- In a directory that was just made only its own files are found. -/
theorem read?_created (e : Entry) (stem ending : Bytes) (number : UInt64) :
    (files.create (directory h unique) e).read?
        (base h (directory h unique) stem number ++ ending) =
      (TemporaryFiles.filesOf (directory h unique, e)).lookup
        (base h (directory h unique) stem number ++ ending) := by
  rw [directory_eq] at hfree
  have hplain : ascii '/' ∉ bytes "cmacros-probe-" ++ unique := by
    rw [List.mem_append, not_or]
    exact ⟨by decide, hname⟩
  obtain ⟨name, hbase⟩ := base_eq h (directory h unique) stem number
  have hnone := hplaced.read?_none hplain hfree (name ++ ending)
  -- the new directory comes last, and no entry before it has a file in it
  rw [← directory_eq, ← List.append_assoc, ← hbase] at hnone
  rw [TemporaryFiles.read?_create, hnone, Option.none_or]

/-- A text file in a directory that was just made. -/
theorem read?_created_text (text stem ending : Bytes) (number : UInt64) :
    (files.create (directory h unique) (.directory true
        [(base h (directory h unique) stem number ++ ending, .text text)])).read?
      (base h (directory h unique) stem number ++ ending) = some (.text text) :=
  (read?_created hplaced hname hfree _ stem ending number).trans List.lookup_cons_self

/-- A module is found in it exactly if the compiler left it: a source file is no module. -/
theorem read?_created_module (response : Response) (source text stem ending : Bytes)
    (number : UInt64) (object : SharedObject) :
    (files.create (directory h unique) ((Entry.directory true
        [(source, .text text)]).putAll response.leaves)).read?
        (base h (directory h unique) stem number ++ ending) = some (.shared object) ↔
      response.left? (base h (directory h unique) stem number ++ ending) =
        some (.shared object) := by
  rw [read?_created hplaced hname hfree, TemporaryFiles.lookup_putAll, ← Response.left?]
  cases response.left? (base h (directory h unique) stem number ++ ending) with
  | some content => rw [Option.some_or]
  | none =>
    rw [Option.none_or, List.lookup_cons]
    split <;> simp

end Created

theorem Prepared.plain (hplain : h.PlainNames) (hp : Prepared h text s unique t) :
    ascii '/' ∉ unique := by
  obtain ⟨t₁, ⟨-, t₀, hunique, -⟩, -⟩ := hp
  exact hplain s.host unique (by rw [hunique])

theorem Prepared.free (hp : Prepared h text s unique t) :
    ∀ x ∈ s.files, x.1 ≠ directory h unique := by
  obtain ⟨t₁, ⟨hfree, -⟩, -⟩ := hp
  exact RunState.taken_eq_false_iff.1 hfree

section Placed

variable (hplain : h.PlainNames) (hplaced : s.files.Placed h.temporary)
include hplain hplaced

/-- The compiler finds the text of the probe in the source file. -/
theorem read?_invocation (hp : Prepared h text s unique t) :
    (invocation h config stem text s unique).files.read?
      (invocation h config stem text s unique).source = some (.text text) := by
  have hread := read?_created_text hplaced (hp.plain hplain) hp.free text stem
    (bytes "." ++ config.language.suffix) (s.probes + 1)
  rwa [← List.append_assoc] at hread

/-- A module is loaded exactly if the compiler left it. -/
theorem read?_modulePath (hp : Prepared h text s unique t) (response : Response)
    (object : SharedObject) :
    (s.files.create (directory h unique) ((Entry.directory true
        [(sourcePath h config stem s unique, .text text)]).putAll response.leaves)).read?
        (modulePath h stem s unique) = some (.shared object) ↔
      response.left? (modulePath h stem s unique) = some (.shared object) :=
  read?_created_module hplaced (hp.plain hplain) hp.free ..

/-- **When a probe answers**: exactly if every stage succeeds. -/
theorem run_eq_ok_iff {answer : α} :
    (run h config stem text symbol function s).1 = .ok answer ↔
      Answers h config stem text (function symbol) s answer := by
  constructor
  · intro hrun
    rcases prepared_or h text s with ⟨unique, t, hp⟩ | hno
    · obtain ⟨result, t'', heq, hanswer⟩ := run_of_prepared hp rfl
      rw [heq] at hrun
      obtain ⟨hok, object, hread, hfunction⟩ := (hanswer answer).1 hrun
      exact .intro hp rfl hok ((read?_modulePath hplain hplaced hp _ object).1 hread) hfunction
    · obtain ⟨failure, t, probes, heq⟩ := run_of_not_prepared hno
      rw [heq] at hrun
      cases hrun
  · rintro ⟨hp, hinvoke, hok, hleft, hfunction⟩
    obtain ⟨result, t'', heq, hanswer⟩ := run_of_prepared hp hinvoke
    rw [heq]
    exact (hanswer answer).2 ⟨hok, _, (read?_modulePath hplain hplaced hp _ _).2 hleft, hfunction⟩

end Placed

/-! ### What a probe leaves alone -/

/-- Whatever happens, the temporary files are as they were before. -/
theorem files_run : (run h config stem text symbol function s).2.files = s.files := by
  rcases prepared_or h text s with ⟨unique, t, hp⟩ | hno
  · obtain ⟨result, t'', heq, -⟩ := run_of_prepared hp rfl
    rw [heq]
  · obtain ⟨failure, t, probes, heq⟩ := run_of_not_prepared hno
    rw [heq]

/-- At most one command is run from a state to another, on the source file of a probe with a given
text, to build the module beside it. -/
def RunsAtMostOnce (config : Configuration) (text : Bytes) (s s' : RunState τ) : Prop :=
  s'.invocations = s.invocations ∨ ∃ i path, s'.invocations = s.invocations ++ [i] ∧
    i.source = path ++ bytes "." ++ config.language.suffix ∧
    i.argv = config.probeCommand i.source (path ++ bytes ".so") ∧
    i.files.read? i.source = some (.text text)

theorem runsAtMostOnce_run (hplain : h.PlainNames) (hplaced : s.files.Placed h.temporary) :
    RunsAtMostOnce config text s (run h config stem text symbol function s).2 := by
  rcases prepared_or h text s with ⟨unique, t, hp⟩ | hno
  · obtain ⟨result, t'', heq, -⟩ := run_of_prepared hp rfl
    rw [heq]
    exact .inr ⟨_, nextBase h stem s unique, rfl, rfl, rfl, read?_invocation hplain hplaced hp⟩
  · obtain ⟨failure, t, probes, heq⟩ := run_of_not_prepared hno
    rw [heq]
    exact .inl rfl

end Probe

theorem TypeTag.ofAnswer_eq_iff {t : TypeTag} {text : Bytes} (ht : t ≠ .other) :
    ofAnswer text = t ↔ text.trim Bytes.isSpace = t.name := by
  unfold ofAnswer ofName?
  constructor
  · intro h
    cases hfind : all.find? (·.name == text.trim Bytes.isSpace) with
    | none =>
      rw [hfind] at h
      exact absurd h.symm ht
    | some t' =>
      rw [hfind] at h
      obtain rfl : t' = t := h
      exact (by simpa using List.find?_some hfind : t'.name = _).symm
  · intro h
    rw [h]
    cases t <;> decide

namespace Prober

variable {p : Prober τ} {s : RunState τ} {stem text symbol expression : Bytes}
  {function : Bytes → SharedObject → Option α} {t : TypeTag}

/-! ### Asking -/

theorem ask_eq (p : Prober τ) (stem text symbol : Bytes)
    (function : Bytes → SharedObject → Option α) (s : RunState τ) :
    (p.ask stem text symbol function s).1 =
        (Probe.run p.host p.config stem text symbol function s).1.toOption ∧
      (p.ask stem text symbol function s).2.files =
        (Probe.run p.host p.config stem text symbol function s).2.files ∧
      (p.ask stem text symbol function s).2.invocations =
        (Probe.run p.host p.config stem text symbol function s).2.invocations := by
  unfold ask
  split
  · rename_i heq
    rw [heq]
    exact ⟨rfl, rfl, rfl⟩
  · rename_i heq
    rw [heq]
    refine ⟨rfl, ?_, ?_⟩ <;> unfold note <;> split <;> rfl

theorem type_fst (p : Prober τ) (expression : Bytes) (s : RunState τ) :
    (p.type expression s).1 = ((p.ask (bytes "cet") (p.source.forType expression)
      Probe.Source.typeSymbol SharedObject.typeFunctionAt s).1.join.map
        fun tag => TypeTag.ofAnswer tag.beforeNul).getD .other := by
  unfold type
  rcases p.ask (bytes "cet") (p.source.forType expression) Probe.Source.typeSymbol
    SharedObject.typeFunctionAt s with ⟨_ | _ | tag, t⟩ <;> rfl

theorem type_snd (p : Prober τ) (expression : Bytes) (s : RunState τ) :
    (p.type expression s).2 = (p.ask (bytes "cet") (p.source.forType expression)
      Probe.Source.typeSymbol SharedObject.typeFunctionAt s).2 := by
  unfold type
  dsimp only
  split <;> rfl

theorem value_other (p : Prober τ) (expression : Bytes) (s : RunState τ) :
    p.value .other expression s = (none, s) := rfl

theorem value_eq (h : p.source.forValue? t expression = some text) :
    p.value t expression s =
      ((p.ask (bytes "cev") text Probe.Source.valueSymbol SharedObject.valueFunctionAt s).1.bind
        (decode t),
       (p.ask (bytes "cev") text Probe.Source.valueSymbol SharedObject.valueFunctionAt s).2) := by
  unfold value
  rw [h]

/-- There is a probe for the values of every type but `other`. -/
theorem exists_forValue (p : Prober τ) (ht : t ≠ .other) (expression : Bytes) :
    ∃ text, p.source.forValue? t expression = some text := by
  cases t with
  | other => exact absurd rfl ht
  | _ => exact ⟨_, rfl⟩

theorem files_type : (p.type expression s).2.files = s.files := by
  rw [type_snd, (ask_eq ..).2.1, Probe.files_run]

theorem files_value : (p.value t expression s).2.files = s.files := by
  by_cases ht : t = .other
  · rw [ht, value_other]
  · obtain ⟨text, htext⟩ := p.exists_forValue ht expression
    rw [value_eq htext]
    exact (ask_eq ..).2.1.trans Probe.files_run

section Placed

variable (hplain : p.host.PlainNames) (hplaced : s.files.Placed p.host.temporary)
include hplain hplaced

theorem ask_eq_some_iff {answer : α} :
    (p.ask stem text symbol function s).1 = some answer ↔
      Probe.Answers p.host p.config stem text (function symbol) s answer := by
  have hrun : (Probe.run p.host p.config stem text symbol function s).1 = .ok answer ↔ _ :=
    Probe.run_eq_ok_iff hplain hplaced
  rw [(ask_eq ..).1, ← hrun]
  cases (Probe.run p.host p.config stem text symbol function s).1 <;> simp [Except.toOption]

theorem runsAtMostOnce_ask :
    Probe.RunsAtMostOnce p.config text s (p.ask stem text symbol function s).2 := by
  have hrun : Probe.RunsAtMostOnce p.config text s
      (Probe.run p.host p.config stem text symbol function s).2 :=
    Probe.runsAtMostOnce_run hplain hplaced
  unfold Probe.RunsAtMostOnce at hrun ⊢
  rwa [(ask_eq ..).2.2]

/-- When a type is found. -/
theorem type_eq_iff (ht : t ≠ .other) :
    (p.type expression s).1 = t ↔ ∃ answer,
      Probe.Answers p.host p.config (bytes "cet") (p.source.forType expression)
        (SharedObject.typeFunctionAt Probe.Source.typeSymbol) s (some answer) ∧
      answer.beforeNul.trim Bytes.isSpace = t.name := by
  have hask : ∀ answer, (p.ask (bytes "cet") (p.source.forType expression)
      Probe.Source.typeSymbol SharedObject.typeFunctionAt s).1 = some answer ↔ _ :=
    fun answer => ask_eq_some_iff hplain hplaced
  unfold type
  dsimp only
  simp only [← hask, ← TypeTag.ofAnswer_eq_iff ht]
  split
  · rename_i answer hanswer
    simp [hanswer]
  · rename_i hanswer
    simp only [Ne.symm ht, false_iff, not_exists, not_and]
    exact fun answer h => absurd h (hanswer answer)

/-- When a value is found, and which. -/
theorem value_eq_some_iff (htext : p.source.forValue? t expression = some text) {v : Value} :
    (p.value t expression s).1 = some v ↔ ∃ r,
      Probe.Answers p.host p.config (bytes "cev") text
        (SharedObject.valueFunctionAt Probe.Source.valueSymbol) s r ∧
      decode t r = some v := by
  rw [value_eq htext, Option.bind_eq_some_iff]
  simp only [ask_eq_some_iff hplain hplaced]

end Placed

/-! ### Decoding -/

theorem type_of_decode {r : Reading} {v : Value} (h : decode t r = some v) : v.type = t := by
  cases t with
  | string =>
    obtain ⟨text, -, rfl⟩ := Option.map_eq_some_iff.1 h
    rfl
  | other => cases h
  | _ =>
    obtain rfl := Option.some.inj h
    rfl

theorem isSome_decode {r : Reading} (ht : t ≠ .other) :
    (decode t r).isSome ↔ (t = .string → r.string ≠ none) := by
  cases t with
  | string => simp [decode, Option.isSome_iff_ne_none]
  | other => exact absurd rfl ht
  | _ => simp [decode]

/-! ### Histories -/

/-- A call of a prober. -/
inductive Call where
  | type (expression : Bytes)
  | value (type : TypeTag) (expression : Bytes)

/-- The state after a call. -/
def Call.after (p : Prober τ) : Call → RunState τ → RunState τ
  | type expression, s => (p.type expression s).2
  | value t expression, s => (p.value t expression s).2

/-- The state after calls in order. -/
def after (p : Prober τ) (calls : List Call) (s : RunState τ) : RunState τ :=
  calls.foldl (fun s call => call.after p s) s

theorem files_call (p : Prober τ) (call : Call) (s : RunState τ) :
    (call.after p s).files = s.files := by
  cases call with
  | type expression => exact files_type
  | value t expression => exact files_value

theorem files_after (p : Prober τ) (calls : List Call) (s : RunState τ) :
    (p.after calls s).files = s.files := by
  induction calls generalizing s with
  | nil => rfl
  | cons call calls ih => exact (ih (call.after p s)).trans (files_call p call s)

/-- **What the calls of a prober answer and what they run.**  Whatever the host does, and after any
calls: a type is found exactly if every stage of its probe succeeds and the answer, which is no null
pointer, spells it; a value of a type is found exactly if every stage of its probe succeeds and a
string is no null pointer, and is of that type; for `other` nothing is done; and every other call
runs at most one command, on the source of its probe. -/
theorem calls_answer (p : Prober τ) (s : RunState τ) (hplain : p.host.PlainNames)
    (hplaced : s.files.Placed p.host.temporary) (calls : List Call) :
    (∀ expression t, t ≠ .other →
      ((p.type expression (p.after calls s)).1 = t ↔ ∃ answer,
        Probe.Answers p.host p.config (bytes "cet") (p.source.forType expression)
          (SharedObject.typeFunctionAt Probe.Source.typeSymbol) (p.after calls s) (some answer) ∧
        answer.beforeNul.trim Bytes.isSpace = t.name)) ∧
    (∀ expression, Probe.RunsAtMostOnce p.config (p.source.forType expression) (p.after calls s)
      (p.type expression (p.after calls s)).2) ∧
    (∀ t expression, t ≠ .other → ∃ text, p.source.forValue? t expression = some text ∧
      ((p.value t expression (p.after calls s)).1.isSome ↔ ∃ r,
        Probe.Answers p.host p.config (bytes "cev") text
          (SharedObject.valueFunctionAt Probe.Source.valueSymbol) (p.after calls s) r ∧
        (t = .string → r.string ≠ none)) ∧
      (∀ v, (p.value t expression (p.after calls s)).1 = some v → v.type = t) ∧
      Probe.RunsAtMostOnce p.config text (p.after calls s)
        (p.value t expression (p.after calls s)).2) ∧
    ∀ expression, p.source.forValue? .other expression = none ∧
      p.value .other expression (p.after calls s) = (none, p.after calls s) := by
  -- the calls before leave the files as they were, so any state with placed files will do
  rw [← files_after p calls s] at hplaced
  generalize p.after calls s = s at hplaced ⊢
  refine ⟨fun expression t ht => type_eq_iff hplain hplaced ht, fun expression => ?_,
    fun t expression ht => ?_, fun expression => ⟨rfl, value_other p expression s⟩⟩
  · rw [type_snd]
    exact runsAtMostOnce_ask hplain hplaced
  · obtain ⟨text, htext⟩ := p.exists_forValue ht expression
    have hvalue : ∀ v, (p.value t expression s).1 = some v ↔ _ :=
      fun v => value_eq_some_iff hplain hplaced htext
    refine ⟨text, htext, ?_, fun v hv => ?_, ?_⟩
    · simp only [Option.isSome_iff_exists, hvalue, ← isSome_decode ht]
      exact ⟨fun ⟨v, r, hr, hv⟩ => ⟨r, hr, v, hv⟩, fun ⟨r, hr, v, hv⟩ => ⟨v, r, hr, hv⟩⟩
    · obtain ⟨r, -, hdecode⟩ := (hvalue v).1 hv
      exact type_of_decode hdecode
    · rw [value_eq htext]
      exact runsAtMostOnce_ask hplain hplaced

/-- A prober whose compiler does what a script says. -/
def rehearsed : Prober Script where
  host := Host.scripted (bytes "/tmp") 7 none
  config := { headers := [bytes "limits.h"], compiler := [bytes "cc"] }

/-- A script of two modules: the first answers with a type, the second with a value. -/
def rehearsal : RunState Script where
  host := { results := [
    { built := some (.shared { typeFunction := some (some (bytes " int\n")) }) },
    { built := some (.shared { valueFunction := some { int := 5 } }) }] }

/-- Both calls of the script find what they ask for. -/
theorem calls_answer_rehearsal :
    (rehearsed.type (bytes "N") rehearsal).1 = .int ∧
      (rehearsed.value .int (bytes "N")
        (rehearsed.after [.type (bytes "N")] rehearsal)).1.isSome = true := by
  have hplain : rehearsed.host.PlainNames := Host.plainNames_scripted _ _ _
  have hplaced : rehearsal.files.Placed rehearsed.host.temporary :=
    ⟨by simp [rehearsal], by simp [rehearsal]⟩
  constructor
  · obtain ⟨htype, -⟩ := calls_answer rehearsed rehearsal hplain hplaced []
    have hopened : Probe.Opened rehearsed.host rehearsal (bytes "1") _ := ⟨by decide, _, rfl, rfl⟩
    exact (htype (bytes "N") .int (by decide)).2
      ⟨_, .intro ⟨_, hopened, rfl⟩ rfl rfl rfl rfl, by decide⟩
  · obtain ⟨-, -, hvalue, -⟩ := calls_answer rehearsed rehearsal hplain hplaced [.type (bytes "N")]
    obtain ⟨text, htext, hsome, -⟩ := hvalue .int (bytes "N") (by decide)
    obtain rfl := Option.some.inj htext
    have hopened : Probe.Opened rehearsed.host (rehearsed.after [.type (bytes "N")] rehearsal)
        (bytes "2") _ := ⟨by decide, _, rfl, rfl⟩
    exact hsome.2 ⟨_, .intro ⟨_, hopened, rfl⟩ rfl rfl rfl rfl, by decide⟩

end Prober

end MacroConstants
