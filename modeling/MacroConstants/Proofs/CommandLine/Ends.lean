import MacroConstants.Proofs.CommandLine.Effective
import MacroConstants.Proofs.Evaluation

/-!
# How a run ends

A run goes through its stages in order, and whatever goes wrong in one of them is known before
anything is printed: nothing that happens while constants are printed can end a run.  So standard
output has everything or nothing.  A probe that fails is no error of a run, and an expression is
evaluated without the preprocessor.

* `CommandLine.Configured` : a command line with what lies under it makes a configuration.
* `CommandLine.Asserts` : what a command line says of the type of its expression.
* `CommandLine.ComesTo` : what a run comes to, stage by stage, and
  `CommandLine.verdict_eq_iff` : which is one thing only.
* `CommandLine.printed_iff_of_expression` : an expression is printed whatever the compiler does.
* `CommandLine.built_run` : an expression is evaluated with few commands.
* `CommandLine.run_ends` : **exit status, standard output and the end of standard error.**
-/

namespace MacroConstants

theorem TypeTag.ofName_eq_ok_iff {text : Bytes} {t : TypeTag} :
    ofName text = .ok t ↔ text = t.name := by
  have hfind : ofName? text = some t ↔ text = t.name := by
    constructor
    · intro h
      exact (by simpa using List.find?_some h : t.name = text).symm
    · rintro rfl
      cases t <;> decide
  rw [← hfind, ofName]
  cases ofName? text <;> simp

theorem TypeTag.ofName_eq_error_iff {text : Bytes} {fault : Fault} :
    ofName text = .error fault ↔ (∀ t : TypeTag, t.name ≠ text) ∧ fault = .typeTag text := by
  have hnone : (∀ t : TypeTag, t.name ≠ text) ↔ ∀ t, ofName text ≠ .ok t :=
    forall_congr' fun t => not_congr (eq_comm.trans ofName_eq_ok_iff.symm)
  rw [hnone, ofName]
  cases ofName? text <;> simp [eq_comm]

namespace CommandLine

variable {τ : Type} (env : Environment) (read : Bytes → Option Bytes) (os : List Occurrence)
  (format : Report.Format) (host : Bool → Host τ) (s : RunState τ)

/-! ### What a run comes to -/

/-- The three layers make a configuration that can be used: the one of this discovery. -/
def Configured [PatternEngine] (d : Discovery) : Prop :=
  ∃ f, FileGives read os f ∧ Effective env f os d.config

/-- What is asserted of the type of the expression: nothing, or the tag that is given. -/
inductive Asserts : Option TypeTag → Prop
  | nothing : valueOf? .type os = none → Asserts none
  | tag {t : TypeTag} : valueOf? .type os = some t.name → Asserts (some t)

/-- What a run comes to.  Without a configuration it fails.  An expression is then printed, unless
its type is none; it takes the place of the headers.  Of headers there must be some, and then the
discovery fails or the constants are printed. -/
inductive ComesTo [PatternEngine] : Verdict → Prop
  | misconfigured {fault : Fault} : Reports env read os fault → ComesTo (.failed fault)
  | untyped {d : Discovery} {text name : Bytes} : Configured env read os d →
      valueOf? .expression os = some text → valueOf? .type os = some name →
      (∀ t : TypeTag, t.name ≠ name) → ComesTo (.failed (.typeTag name))
  | evaluated {d : Discovery} {text : Bytes} {asserted : Option TypeTag} :
      Configured env read os d → valueOf? .expression os = some text → Asserts os asserted →
      ComesTo (.printed ((Catalog.single (.expression text asserted)).report
        (resolver d (host d.config.verbose)) true format s).1)
  | headerless {d : Discovery} : Configured env read os d → valueOf? .expression os = none →
      d.config.headers = [] → ComesTo .noHeaders
  | undiscovered {d : Discovery} {s₁ : RunState τ} {fault : Fault} : Configured env read os d →
      valueOf? .expression os = none → d.config.headers ≠ [] →
      d.run (host d.config.verbose)
        (progress (.said os format) (bytes "Preprocessing headers ...") s) = (.error fault, s₁) →
      ComesTo (.failed fault)
  | discovered {d : Discovery} {k : Catalog} {s₁ : RunState τ} : Configured env read os d →
      valueOf? .expression os = none → d.config.headers ≠ [] →
      d.run (host d.config.verbose)
        (progress (.said os format) (bytes "Preprocessing headers ...") s) = (.ok k, s₁) →
      ComesTo (.printed (k.report (resolver d (host d.config.verbose))
        (os.contains (.flag .resolve)) format
        (progress (.said os format) (Numeral.decimal k.size ++ bytes " macro(s) found") s₁)).1)

variable {env read os format host s} {d : Discovery} {v : Verdict}

/-- The type that an expression is evaluated at. -/
theorem asserts_iff {asserted : Option TypeTag} :
    Asserts os asserted ↔
      ((Options.said os format).type.map fun tag => (TypeTag.ofName tag).map some).getD (.ok none) =
        .ok asserted := by
  dsimp only [Options.said]
  constructor
  · intro h
    cases h with
    | nothing h => rw [h]; rfl
    | tag h =>
      rw [h]
      exact map_eq_ok_iff.2 ⟨_, TypeTag.ofName_eq_ok_iff.2 rfl, rfl⟩
  · intro h
    cases htype : valueOf? .type os with
    | none =>
      rw [htype] at h
      obtain rfl := Except.ok.inj h
      exact .nothing htype
    | some name =>
      rw [htype] at h
      obtain ⟨t, ht, rfl⟩ := map_eq_ok_iff.1 h
      obtain rfl := TypeTag.ofName_eq_ok_iff.1 ht
      exact .tag htype

/-- The faults in what is asserted. -/
theorem not_asserts_iff {fault : Fault} :
    ((Options.said os format).type.map fun tag => (TypeTag.ofName tag).map some).getD (.ok none) =
        .error fault ↔
      ∃ name, valueOf? .type os = some name ∧ (∀ t : TypeTag, t.name ≠ name) ∧
        fault = .typeTag name := by
  dsimp only [Options.said]
  cases valueOf? .type os with
  | none => simp
  | some name =>
    simp only [Option.map_some, Option.getD_some, map_eq_error_iff, TypeTag.ofName_eq_error_iff,
      Option.some.injEq, exists_eq_left']

/-- What a failed command had to say comes before the fault itself. -/
theorem Verdict.exists_complaint (fault : Fault) :
    ∃ captured, (failed fault).complaint =
      captured ++ bytes "cmacros error: " ++ fault.shown ++ bytes "\n" := ⟨_, rfl⟩

section Ends

variable [PatternEngine]

theorem configured_iff :
    Configured env read os d ↔
      ((Options.said os format).config env read).bind Discovery.ofConfig = .ok d := by
  simp only [Configured, bind_eq_ok_iff, Discovery.ofConfig_eq_ok_iff, exists_eq_right',
    Options.config_eq_ok_iff]

/-- Once it is configured a run evaluates its expression, or else looks at its headers. -/
theorem verdict_of_configured (hd : Configured env read os d) :
    verdict (.said os format) env read host s =
      match valueOf? .expression os with
      | some text => evaluate (.said os format) text d (host d.config.verbose) s
      | none => discover (.said os format) d (host d.config.verbose) s := by
  rw [verdict, configured_iff.1 hd]
  rfl

/-- Every run comes to something. -/
theorem comesTo_verdict : ComesTo env read os format host s
    (verdict (.said os format) env read host s).1 := by
  -- stage by stage, with one constructor for each way out
  cases hd : ((Options.said os format).config env read).bind Discovery.ofConfig with
  | error fault =>
    rw [verdict, hd]
    exact .misconfigured (ofConfig_config_eq_error_iff.1 hd)
  | ok d =>
    have hconfigured : Configured env read os d := configured_iff.2 hd
    rw [verdict_of_configured hconfigured]
    cases hexpression : valueOf? .expression os with
    | some text =>
      dsimp only
      unfold evaluate
      split
      · rename_i fault herror
        obtain ⟨name, hname, hnone, rfl⟩ := not_asserts_iff.1 herror
        exact .untyped hconfigured hexpression hname hnone
      · rename_i asserted hasserted
        exact .evaluated hconfigured hexpression (asserts_iff.2 hasserted)
    | none =>
      dsimp only
      unfold discover
      split
      · rename_i hheaders
        exact .headerless hconfigured hexpression (List.isEmpty_iff.1 hheaders)
      · rename_i hheaders
        have hsome : d.config.headers ≠ [] := fun h => hheaders (List.isEmpty_iff.2 h)
        split
        · rename_i heq
          exact .undiscovered hconfigured hexpression hsome heq
        · rename_i heq
          exact .discovered hconfigured hexpression hsome heq

/-- What a run comes to is what it does. -/
theorem ComesTo.verdict_eq (h : ComesTo env read os format host s v) :
    (verdict (.said os format) env read host s).1 = v := by
  cases h with
  | misconfigured hreports => rw [verdict, ofConfig_config_eq_error_iff.2 hreports]
  | untyped hd hexpression htype hnone =>
    rw [verdict_of_configured hd, hexpression]
    dsimp only
    rw [evaluate, not_asserts_iff.2 ⟨_, htype, hnone, rfl⟩]
  | evaluated hd hexpression hasserted =>
    rw [verdict_of_configured hd, hexpression]
    dsimp only
    rw [evaluate, asserts_iff.1 hasserted]
    rfl
  | headerless hd hexpression hheaders =>
    rw [verdict_of_configured hd, hexpression]
    dsimp only
    rw [discover, if_pos (List.isEmpty_iff.2 hheaders)]
  | undiscovered hd hexpression hheaders hrun =>
    rw [verdict_of_configured hd, hexpression]
    dsimp only
    rw [discover, if_neg (mt List.isEmpty_iff.1 hheaders), hrun]
  | discovered hd hexpression hheaders hrun =>
    rw [verdict_of_configured hd, hexpression]
    dsimp only
    rw [discover, if_neg (mt List.isEmpty_iff.1 hheaders), hrun]
    rfl

/-- A run comes to one thing only. -/
theorem verdict_eq_iff :
    (verdict (.said os format) env read host s).1 = v ↔ ComesTo env read os format host s v :=
  ⟨fun h => h ▸ comesTo_verdict, ComesTo.verdict_eq⟩

theorem status_eq_zero_iff :
    (verdict (.said os format) env read host s).1.status = 0 ↔
      ∃ out, ComesTo env read os format host s (.printed out) := by
  simp only [← verdict_eq_iff]
  cases (verdict (.said os format) env read host s).1 <;> simp [Verdict.status]

/-! ### Expressions -/

variable {text : Bytes}

/-- An expression is printed exactly if there is a configuration and its type is left open or one
that is known.  The host has no part in it. -/
theorem printed_iff_of_expression (hexpression : valueOf? .expression os = some text) :
    (∃ out, ComesTo env read os format host s (.printed out)) ↔
      (∃ d, Configured env read os d) ∧ ∃ asserted, Asserts os asserted := by
  constructor
  · rintro ⟨out, h⟩
    cases h with
    | evaluated hd _ hasserted => exact ⟨⟨_, hd⟩, _, hasserted⟩
    | discovered _ hnone => simp [hexpression] at hnone
  · rintro ⟨⟨d, hd⟩, asserted, hasserted⟩
    exact ⟨_, .evaluated hd hexpression hasserted⟩

/-- Only the modules of at most two probes are built for an expression, of at most one if its type
is asserted, and none at `other`. -/
theorem built_verdict (hexpression : valueOf? .expression os = some text) :
    ∃ ran, (verdict (.said os format) env read host s).2.invocations = s.invocations ++ ran ∧
      ran.length ≤ 2 ∧ (valueOf? .type os ≠ none → ran.length ≤ 1) ∧
      (valueOf? .type os = some TypeTag.other.name → ran = []) ∧
      ∀ i ∈ ran, ∃ d, Configured env read os d ∧ d.config.Builds i := by
  have hidle : ∃ ran, s.invocations = s.invocations ++ ran ∧ ran.length ≤ 2 ∧
      (valueOf? .type os ≠ none → ran.length ≤ 1) ∧
      (valueOf? .type os = some TypeTag.other.name → ran = []) ∧
      ∀ i ∈ ran, ∃ d, Configured env read os d ∧ d.config.Builds i :=
    ⟨[], by simp⟩
  cases hd : ((Options.said os format).config env read).bind Discovery.ofConfig with
  | error fault =>
    rw [verdict, hd]
    exact hidle
  | ok d =>
    have hconfigured : Configured env read os d := configured_iff.2 hd
    rw [verdict_of_configured hconfigured, hexpression]
    dsimp only
    unfold evaluate
    split
    · exact hidle
    · rename_i asserted hasserted
      obtain ⟨hbuilt, hother⟩ := Prober.built_expression
        { host := host d.config.verbose, config := d.config } text asserted format s
      obtain ⟨ran, hran, hlength, hbuilds⟩ := hbuilt
      refine ⟨ran, hran, hlength.trans (Nat.sub_le _ _), ?_, ?_,
        fun i hi => ⟨d, hconfigured, hbuilds i hi⟩⟩
      · intro htype
        -- the bound is 2, less one for a tag that is asserted
        cases asserts_iff.2 hasserted with
        | nothing hnone => exact absurd hnone htype
        | tag => exact hlength
      · intro htype
        cases asserts_iff.2 hasserted with
        | nothing hnone => simp [htype] at hnone
        | tag htag =>
          rename_i t
          obtain rfl : t = .other := by
            rw [htype] at htag
            cases t <;> first | rfl | exact absurd (Option.some.inj htag) (by decide)
          rw [hother rfl] at hran
          simpa using hran

/-! ### All of it -/

/-- **How a run ends.**  Of the options and headers that the arguments spell, whatever the
environment, the settings file and the host are: a run exits with 0 and has printed all that it came
to print, or exits with 1 and has printed nothing.  In the second case the last words on standard
error are the fault that was raised, or that there are no headers.  An expression is printed
whatever its probes come to; no more than two modules are built for it, one if its type is asserted
and none at `other`, and the preprocessor is not run. -/
theorem run_ends {args : List Bytes} (hargs : Spells args os)
    (hformat : ∀ name, valueOf? .format os = some name →
      ∃ format, Report.Format.ofName? name = some format)
    (env : Environment) (read : Bytes → Option Bytes) (host : Bool → Host τ) (s : RunState τ) :
    ∃ format, Options.ofArguments args = .ok (.said os format) ∧
      let e := run args env read host s
      let ends := ComesTo env read os format host s
      ((∃ out, ends (.printed out) ∧ e.status = 0 ∧ e.out = out) ∨
        (∃ fault, ends (.failed fault) ∧ e.status = 1 ∧ e.out = [] ∧ ∃ before,
          e.world.console = before ++ bytes "cmacros error: " ++ fault.shown ++ bytes "\n") ∨
        (ends .noHeaders ∧ e.status = 1 ∧ e.out = [] ∧ ∃ before,
          e.world.console = before ++ bytes "cmacros: no headers given\n")) ∧
      ∀ text, valueOf? .expression os = some text →
        (e.status = 0 ↔ (∃ d, Configured env read os d) ∧ ∃ asserted, Asserts os asserted) ∧
        ∃ ran, e.world.invocations = s.invocations ++ ran ∧ ran.length ≤ 2 ∧
          (valueOf? .type os ≠ none → ran.length ≤ 1) ∧
          (valueOf? .type os = some TypeTag.other.name → ran = []) ∧
          ∀ i ∈ ran, ∃ d, Configured env read os d ∧ d.config.Builds i ∧
            i.argv ≠ d.config.dumpCommand i.source := by
  obtain ⟨format, hsaid⟩ := Options.exists_ofOccurrences_eq_said hformat
  have ho : Options.ofArguments args = .ok (.said os format) := by
    rw [Options.ofArguments, occurrences_of_spells hargs]
    exact hsaid
  have hrun : run args env read host s = runOptions (.said os format) env read host s := by
    rw [run, ho]
  have hcomes : ComesTo env read os format host s
      (verdict (.said os format) env read host s).1 := comesTo_verdict
  refine ⟨format, ho, ?_⟩
  rw [hrun]
  refine ⟨?_, fun text hexpression => ⟨?_, ?_⟩⟩
  · unfold runOptions
    generalize verdict (.said os format) env read host s = ending at hcomes
    obtain ⟨v, s'⟩ := ending
    cases v with
    | printed out => exact .inl ⟨out, hcomes, rfl, rfl⟩
    | failed fault =>
      obtain ⟨captured, hcomplaint⟩ := Verdict.exists_complaint fault
      refine .inr (.inl ⟨fault, hcomes, rfl, rfl, s'.console ++ captured, ?_⟩)
      simp only [RunState.say, hcomplaint, List.append_assoc]
    | noHeaders => exact .inr (.inr ⟨hcomes, rfl, rfl, s'.console, rfl⟩)
  · exact status_eq_zero_iff.trans (printed_iff_of_expression hexpression)
  · obtain ⟨ran, hran, htwo, hone, hnone, hbuilds⟩ := built_verdict hexpression
    refine ⟨ran, hran, htwo, hone, hnone, fun i hi => ?_⟩
    obtain ⟨d, hd, hi⟩ := hbuilds i hi
    exact ⟨d, hd, hi, hi.argv_ne⟩

end Ends

/-- An expression, and a compiler for it. -/
def sumArguments : List Bytes := ["--eval=1+2", "--cc", "cc"].map bytes

/-- What they say. -/
def sumOccurrences : List Occurrence :=
  [.value .expression (bytes "1+2"), .value .compiler (bytes "cc")]

/-- A compiler that always fails leaves an expression without type and value, after one probe, and
the run exits with 0. -/
theorem run_ends_failed_probe :
    letI := PatternEngine.literal
    let host := fun _ : Bool => Host.scripted (bytes "/tmp") 7 none
    let e := run sumArguments {} (fun _ => none) host { host := {} }
    Spells sumArguments sumOccurrences ∧ e.status = 0 ∧ e.out = bytes "1+2\tother\t\n" ∧
      e.world.invocations.length = 1 ∧
      ∀ i ∈ e.world.invocations, ∃ d, Configured {} (fun _ => none) sumOccurrences d ∧
        d.config.Builds i := by
  let _ := PatternEngine.literal
  intro host e
  have hspells : Spells sumArguments sumOccurrences := occurrences_eq_ok_iff.1 rfl
  obtain ⟨format, -, -, hexpression⟩ :=
    run_ends hspells nofun {} (fun _ => none) host { host := {} }
  obtain ⟨-, ran, hran, -, -, -, hbuilds⟩ := hexpression (bytes "1+2") rfl
  have hinvocations : e.world.invocations = ran := hran
  refine ⟨hspells, rfl, rfl, rfl, fun i hi => ?_⟩
  obtain ⟨d, hd, hi, -⟩ := hbuilds i (hinvocations ▸ hi)
  exact ⟨d, hd, hi⟩

end CommandLine

end MacroConstants
