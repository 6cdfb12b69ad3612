import MacroConstants.Host.Scripted
import MacroConstants.Proofs.CommandLine.Arguments
import MacroConstants.Proofs.Discovery
import MacroConstants.Proofs.Settings.Layer

/-!
# The configuration of a command line

A configuration has three layers: options lie over the settings file, and the file over what the
environment gives.  Most settings are replaced, headers only if the command line has some; extra
flags are added, and verbosity is asked for by either layer.  All this is so for any pattern engine,
whose words end up in the fault of a pattern that it refuses.

* `CommandLine.FileGives` : what the settings file of a command line gives.
* `CommandLine.Effective` : the configuration of three layers, field by field.
* `CommandLine.Refuses`, `CommandLine.Reports` : the faults that each stage may find, and the one
  that is reported.
* `Options.fromFile_eq_ok_iff`, `Options.override_eq_ok_iff` : what one layer does over the one
  below, and with `_error_iff` when it fails.
* `CommandLine.configuration_layered` : **what a run is configured with, and which fault ends it
  if there are several.**
-/

namespace MacroConstants

namespace CommandLine

open Settings

variable {os : List Occurrence} {env : Environment} {read : Bytes → Option Bytes} {f : Layer}
  {c c' : Configuration} {format : Report.Format} {fault : Fault}

/-! ### Three layers -/

/-- The value of an option; of several the last one counts. -/
def valueOf? (k : Key) (os : List Occurrence) : Option Bytes := (valuesOf k os).getLast?

/-- What the settings file of a command line gives.  It gives nothing if none is named, or one
without a name; else it has to be read and accepted. -/
inductive FileGives [PatternEngine] (read : Bytes → Option Bytes) (os : List Occurrence) :
    Layer → Prop
  | absent : valueOf? .config os = none → FileGives read os {}
  | nameless : valueOf? .config os = some [] → FileGives read os {}
  | present {path text : Bytes} {f : Layer} : valueOf? .config os = some path → path ≠ [] →
      read path = some text → Accepted text → f.Of text.lines → FileGives read os f

/-- The compiler: the words of the option, else the file's, else that of the environment. -/
def compilerOf (env : Environment) (f : Layer) (os : List Occurrence) : List Bytes :=
  (((valueOf? .compiler os).map splitWords).or f.compiler).getD env.compiler

/-- A configuration that is made of three layers: options over a settings file over an
environment. -/
structure Effective [PatternEngine] (env : Environment) (f : Layer) (os : List Occurrence)
    (c : Configuration) : Prop where
  headers : c.headers = if headersOf os = [] then f.headers.getD [] else headersOf os
  language : ∀ text, valueOf? .language os = some text → c.language.name = text
  language_open : valueOf? .language os = none → c.language = f.language.getD .c
  compiler : c.compiler = compilerOf env f os
  dumpFlags : c.dumpFlags = f.dumpFlags
  flags : c.flags = (((valueOf? .flags os).map splitWords).or f.flags).getD
    ((env.cflags.map splitWords).getD [])
  extraFlags : c.extraFlags = f.extraFlags.getD [] ++
    ((valuesOf .includePath os).map (bytes "-I" ++ ·) ++
      (valuesOf .define os).map (bytes "-D" ++ ·) ++ valuesOf .extraFlag os)
  filter : ∀ pattern, valueOf? .filter os = some pattern →
    ∃ keep, PatternEngine.compile pattern = .ok keep ∧ c.filter = some keep
  filter_open : valueOf? .filter os = none → c.filter = some (f.filter.getD Selector.default)
  verbose : c.verbose = true ↔ .flag .verbose ∈ os ∨ f.verbose = some true

/-! ### What can go wrong -/

/-- What is looked at, in this order. -/
inductive Stage where
  | file
  | language
  | filter
  | validation

/-- The stages before a stage. -/
def Stage.earlier : Stage → List Stage
  | file => []
  | language => [file]
  | filter => [file, language]
  | validation => [file, language, filter]

/-- A stage finds fault, whatever the others do: the file is not there or is not accepted, the
language of an option is none or its pattern is refused by the engine, or there is no compiler. -/
inductive Refuses [PatternEngine] (env : Environment) (read : Bytes → Option Bytes)
    (os : List Occurrence) : Stage → Fault → Prop
  | unreadable {path : Bytes} : valueOf? .config os = some path → path ≠ [] → read path = none →
      Refuses env read os .file (.unreadable path)
  | file {path text : Bytes} {c : Configuration} {fault : Fault} :
      valueOf? .config os = some path → path ≠ [] → read path = some text →
      (Configuration.ofEnvironment env).load path text = (c, some fault) →
      Refuses env read os .file fault
  | language {text : Bytes} : valueOf? .language os = some text → (∀ l : Language, l.name ≠ text) →
      Refuses env read os .language (.language text)
  | filter {pattern reason : Bytes} : valueOf? .filter os = some pattern →
      PatternEngine.compile pattern = .error reason →
      Refuses env read os .filter (.filter pattern reason)
  | validation {f : Layer} : FileGives read os f → (compilerOf env f os).headD [] = [] →
      Refuses env read os .validation .noCompiler

/-- The first stage that finds fault finds this one. -/
def Reports [PatternEngine] (env : Environment) (read : Bytes → Option Bytes)
    (os : List Occurrence) (fault : Fault) : Prop :=
  ∃ stage, Refuses env read os stage fault ∧
    ∀ earlier ∈ stage.earlier, ∀ other, ¬ Refuses env read os earlier other

end CommandLine

open CommandLine Settings

namespace Options

variable {os : List Occurrence} {env : Environment} {read : Bytes → Option Bytes} {f : Layer}
  {c c' : Configuration} {format : Report.Format} {fault : Fault}

/-- What occurrences amount to, once the format is known. -/
def said (os : List Occurrence) (format : Report.Format) : Options where
  headers := headersOf os
  settingsFile := valueOf? .config os
  language := valueOf? .language os
  compiler := valueOf? .compiler os
  flags := valueOf? .flags os
  includePaths := valuesOf .includePath os
  defines := valuesOf .define os
  extraFlags := valuesOf .extraFlag os
  filter := valueOf? .filter os
  resolve := os.contains (.flag .resolve)
  format := format
  expression := valueOf? .expression os
  type := valueOf? .type os
  verbose := os.contains (.flag .verbose)

/-- Occurrences amount to options if the format is known. -/
theorem exists_ofOccurrences_eq_said
    (h : ∀ name, valueOf? .format os = some name →
      ∃ format, Report.Format.ofName? name = some format) :
    ∃ format, ofOccurrences os = .ok (said os format) := by
  unfold ofOccurrences
  dsimp only
  cases hname : (valuesOf .format os).getLast? with
  | none => exact ⟨.text, rfl⟩
  | some name =>
    obtain ⟨format, hformat⟩ := h name hname
    dsimp only
    rw [hformat]
    exact ⟨format, rfl⟩

/-! ### The language -/

/-- The language of the option, or the one there is. -/
def languageIn (o : Options) (c : Configuration) : Except Fault Language :=
  (o.language.map Language.ofName).getD (.ok c.language)

theorem languageIn_eq_ok_iff {l : Language} :
    (said os format).languageIn c = .ok l ↔
      (∀ text, valueOf? .language os = some text → l.name = text) ∧
        (valueOf? .language os = none → l = c.language) := by
  unfold languageIn said
  dsimp only
  cases valueOf? .language os with
  | none => simp [eq_comm]
  | some text =>
    have hname : Language.ofName text = .ok l ↔ l.name = text :=
      Language.ofName_eq_ok_iff.trans eq_comm
    simp [hname]

/-! ### The settings file -/

variable [PatternEngine]

/-- Without a settings file nothing is read; else its text is loaded. -/
theorem fromFile_cases (read : Bytes → Option Bytes) (c : Configuration) :
    ((valueOf? .config os = none ∨ valueOf? .config os = some []) ∧
        (said os format).fromFile read c = .ok c) ∨
      ∃ path, valueOf? .config os = some path ∧ path ≠ [] ∧
        (said os format).fromFile read c =
          match c.loadFile path (read path) with
          | (c, none) => .ok c
          | (_, some fault) => .error fault := by
  unfold fromFile said
  dsimp only
  cases hpath : valueOf? .config os with
  | none => exact .inl ⟨.inl rfl, rfl⟩
  | some path =>
    cases path with
    | nil => exact .inl ⟨.inr rfl, rfl⟩
    | cons b path => exact .inr ⟨b :: path, rfl, List.cons_ne_nil b path, rfl⟩

theorem fromFile_eq_ok_iff :
    (said os format).fromFile read c = .ok c' ↔ ∃ f, FileGives read os f ∧ c' = f.over c := by
  rcases fromFile_cases read c with ⟨hnone, hread⟩ | ⟨path, hpath, hne, hread⟩
  · rw [hread]
    constructor
    · intro h
      obtain rfl := Except.ok.inj h
      exact ⟨{}, hnone.elim .absent .nameless, rfl⟩
    · rintro ⟨f, hf, rfl⟩
      cases hf with
      | absent => rfl
      | nameless => rfl
      | present hpath hne => simp [hpath, hne] at hnone
  · rw [hread]
    constructor
    · intro h
      split at h
      · rename_i hload
        obtain rfl := Except.ok.inj h
        unfold Configuration.loadFile at hload
        split at hload
        · rename_i text htext
          obtain ⟨haccepted, f, hf, rfl⟩ := Configuration.load_eq_none_iff_over.1 hload
          exact ⟨f, .present hpath hne htext haccepted hf, rfl⟩
        · cases hload
      · cases h
    · rintro ⟨f, hf, rfl⟩
      cases hf with
      | absent h => rw [hpath] at h; cases h
      | nameless h => exact absurd (Option.some.inj (hpath.symm.trans h)) hne
      | present h _ htext haccepted hf =>
        rename_i text _
        obtain rfl := Option.some.inj (hpath.symm.trans h)
        have hload : c.load path text = (f.over c, none) :=
          Configuration.load_eq_none_iff_over.2 ⟨haccepted, f, hf, rfl⟩
        rw [htext, Configuration.loadFile, hload]

theorem fromFile_eq_error_iff :
    (said os format).fromFile read (.ofEnvironment env) = .error fault ↔
      Refuses env read os .file fault := by
  rcases fromFile_cases read (.ofEnvironment env) with ⟨hnone, hread⟩ | ⟨path, hpath, hne, hread⟩
  · rw [hread]
    refine iff_of_false nofun fun h => ?_
    cases h with
    | unreadable hpath hne => simp [hpath, hne] at hnone
    | file hpath hne => simp [hpath, hne] at hnone
  · rw [hread]
    constructor
    · intro h
      split at h
      · cases h
      · rename_i hload
        obtain rfl := Except.error.inj h
        unfold Configuration.loadFile at hload
        split at hload
        · rename_i text htext
          exact .file hpath hne htext hload
        · rename_i htext
          obtain rfl := Option.some.inj (Prod.mk.inj hload).2
          exact .unreadable hpath hne htext
    · intro h
      cases h with
      | unreadable h _ hnone =>
        obtain rfl := Option.some.inj (hpath.symm.trans h)
        rw [hnone, Configuration.loadFile]
      | file h _ htext hload =>
        obtain rfl := Option.some.inj (hpath.symm.trans h)
        rw [htext, Configuration.loadFile, hload]

/-! ### Options -/

/-- The selector of the pattern, or the one there is. -/
def filterIn (o : Options) (c : Configuration) : Except Fault (Option Selector) :=
  match o.filter with
  | some pattern => (Selector.ofPattern pattern).map some
  | none => .ok c.filter

theorem override_eq (o : Options) (c : Configuration) :
    o.override c = (o.languageIn c).bind fun language => (o.filterIn c).bind fun filter =>
      .ok { c with
        headers := if o.headers.isEmpty then c.headers else o.headers
        language
        compiler := (o.compiler.map splitWords).getD c.compiler
        flags := (o.flags.map splitWords).getD c.flags
        extraFlags := c.extraFlags ++ o.addedFlags
        filter
        verbose := o.verbose || c.verbose } := by
  unfold override filterIn languageIn
  cases o.filter <;> rfl

theorem filterIn_eq_ok_iff {keep : Option Selector} :
    (said os format).filterIn c = .ok keep ↔
      (∀ pattern, valueOf? .filter os = some pattern →
        ∃ keep', PatternEngine.compile pattern = .ok keep' ∧ keep = some keep') ∧
        (valueOf? .filter os = none → keep = c.filter) := by
  unfold filterIn said
  dsimp only
  cases valueOf? .filter os with
  | none => simp [eq_comm]
  | some pattern =>
    simp [map_eq_ok_iff, Selector.ofPattern_eq_ok_iff]

theorem languageIn_eq_error_iff :
    (said os format).languageIn c = .error fault ↔ Refuses env read os .language fault := by
  unfold languageIn said
  dsimp only
  constructor
  · intro h
    cases htext : valueOf? .language os with
    | none =>
      rw [htext] at h
      cases h
    | some text =>
      rw [htext] at h
      obtain ⟨hnone, rfl⟩ := Language.ofName_eq_error_iff.1 h
      exact .language htext hnone
  · intro h
    cases h with
    | language htext hnone =>
      rw [htext]
      exact Language.ofName_eq_error_iff.2 ⟨hnone, rfl⟩

theorem filterIn_eq_error_iff :
    (said os format).filterIn c = .error fault ↔ Refuses env read os .filter fault := by
  unfold filterIn said
  dsimp only
  constructor
  · intro h
    split at h
    · rename_i pattern hpattern
      obtain ⟨reason, hrefused, rfl⟩ := Selector.ofPattern_eq_error_iff.1 (map_eq_error_iff.1 h)
      exact .filter hpattern hrefused
    · cases h
  · intro h
    cases h with
    | filter hpattern hrefused =>
      rw [hpattern]
      exact map_eq_error_iff.2 (Selector.ofPattern_eq_error_iff.2 ⟨_, hrefused, rfl⟩)

/-- The options over a file over the environment. -/
theorem override_eq_ok_iff :
    (said os format).override (f.over (.ofEnvironment env)) = .ok c ↔ Effective env f os c := by
  have hheaders : (if (headersOf os).isEmpty then f.headers.getD [] else headersOf os) =
      if headersOf os = [] then f.headers.getD [] else headersOf os := by
    simp only [List.isEmpty_iff]
  have hcompiler : ((valueOf? .compiler os).map splitWords).getD (f.compiler.getD env.compiler) =
      compilerOf env f os := Option.getD_or.symm
  have hflags : ((valueOf? .flags os).map splitWords).getD (f.flags.getD env.compilerFlags) =
      (((valueOf? .flags os).map splitWords).or f.flags).getD env.compilerFlags :=
    Option.getD_or.symm
  have hverbose : (os.contains (.flag .verbose) || f.verbose.getD false) = true ↔
      .flag .verbose ∈ os ∨ f.verbose = some true := by
    rw [Bool.or_eq_true, List.contains_iff_mem]
    cases f.verbose <;> simp
  have hfilter : f.filter.or (some Selector.default) = some (f.filter.getD Selector.default) :=
    Option.or_some
  rw [override_eq, bind_eq_ok_iff]
  constructor
  · intro h
    obtain ⟨language, hlanguage, h⟩ := h
    obtain ⟨filter, hkeep, h⟩ := bind_eq_ok_iff.1 h
    obtain rfl := Except.ok.inj h
    obtain ⟨hnamed, hopen⟩ := languageIn_eq_ok_iff.1 hlanguage
    obtain ⟨hpattern, hdefault⟩ := filterIn_eq_ok_iff.1 hkeep
    exact {
      headers := hheaders
      language := hnamed
      language_open := hopen
      compiler := hcompiler
      dumpFlags := Option.or_none
      flags := hflags
      extraFlags := rfl
      filter := hpattern
      filter_open := fun hnone => (hdefault hnone).trans hfilter
      verbose := hverbose }
  · intro h
    refine ⟨c.language, languageIn_eq_ok_iff.2 ⟨h.language, h.language_open⟩, ?_⟩
    refine bind_eq_ok_iff.2 ⟨c.filter, filterIn_eq_ok_iff.2 ⟨h.filter, ?_⟩, ?_⟩
    · intro hnone
      exact (h.filter_open hnone).trans hfilter.symm
    · refine congrArg Except.ok (eq_of_same fun k => ?_)
      cases k with
      | headers => exact hheaders.trans h.headers.symm
      | cc => exact hcompiler.trans h.compiler.symm
      | ppflags => exact Option.or_none.trans h.dumpFlags.symm
      | cflags => exact hflags.trans h.flags.symm
      | extraCflags => exact h.extraFlags.symm
      | lang => rfl
      | filter => rfl
      | verbose => exact Bool.eq_iff_iff.2 (hverbose.trans h.verbose.symm)

/-- The pattern is looked at only if the language is one. -/
theorem override_eq_error_iff :
    (said os format).override c = .error fault ↔
      Refuses env read os .language fault ∨
        (∀ other, ¬ Refuses env read os .language other) ∧ Refuses env read os .filter fault := by
  have hlanguage : ∀ {other}, (said os format).languageIn c = .error other ↔
      Refuses env read os .language other := languageIn_eq_error_iff
  have hpattern : (said os format).filterIn c = .error fault ↔
      Refuses env read os .filter fault := filterIn_eq_error_iff
  rw [override_eq, bind_eq_error_iff, hlanguage]
  refine or_congr_right ?_
  constructor
  · intro h
    obtain ⟨l, hl, h⟩ := h
    refine ⟨fun other hother => ?_, ?_⟩
    · rw [hlanguage.2 hother] at hl
      cases hl
    · rcases bind_eq_error_iff.1 h with h | ⟨keep, -, h⟩
      · exact hpattern.1 h
      · cases h
  · intro h
    obtain ⟨hnone, h⟩ := h
    cases hl : (said os format).languageIn c with
    | error other => exact absurd (hlanguage.1 hl) (hnone other)
    | ok l => exact ⟨l, rfl, bind_eq_error_iff.2 (.inl (hpattern.2 h))⟩

/-! ### All of it -/

theorem config_eq_ok_iff :
    (said os format).config env read = .ok c ↔ ∃ f, FileGives read os f ∧ Effective env f os c := by
  rw [config, bind_eq_ok_iff]
  constructor
  · intro h
    obtain ⟨c', hfile, h⟩ := h
    obtain ⟨f, hf, rfl⟩ := fromFile_eq_ok_iff.1 hfile
    exact ⟨f, hf, override_eq_ok_iff.1 h⟩
  · intro h
    obtain ⟨f, hf, h⟩ := h
    exact ⟨_, fromFile_eq_ok_iff.2 ⟨f, hf, rfl⟩, override_eq_ok_iff.2 h⟩

/-- The settings file gives something exactly if it is not refused. -/
theorem exists_fileGives_iff (env : Environment) :
    (∃ f, FileGives read os f) ↔ ∀ other, ¬ Refuses env read os .file other := by
  have hok : (∃ f, FileGives read os f) ↔
      ∃ c, (said os .text).fromFile read (.ofEnvironment env) = .ok c := by
    constructor
    · intro h
      obtain ⟨f, hf⟩ := h
      exact ⟨_, fromFile_eq_ok_iff.2 ⟨f, hf, rfl⟩⟩
    · intro h
      obtain ⟨c, hc⟩ := h
      obtain ⟨f, hf, -⟩ := fromFile_eq_ok_iff.1 hc
      exact ⟨f, hf⟩
  rw [hok, exists_eq_ok_iff]
  exact forall_congr' fun other => not_congr fromFile_eq_error_iff

/-- The options are looked at only if the settings file is not refused. -/
theorem config_eq_error_iff :
    (said os format).config env read = .error fault ↔ Refuses env read os .file fault ∨
      (∀ other, ¬ Refuses env read os .file other) ∧ (Refuses env read os .language fault ∨
        (∀ other, ¬ Refuses env read os .language other) ∧ Refuses env read os .filter fault) := by
  rw [config, bind_eq_error_iff, fromFile_eq_error_iff, ← exists_fileGives_iff env]
  refine or_congr_right ?_
  -- a file that is not refused gives something, and the options lie over that
  constructor
  · intro h
    obtain ⟨c, hfile, h⟩ := h
    obtain ⟨f, hf, rfl⟩ := fromFile_eq_ok_iff.1 hfile
    exact ⟨⟨f, hf⟩, override_eq_error_iff.1 h⟩
  · intro h
    obtain ⟨⟨f, hf⟩, h⟩ := h
    exact ⟨_, fromFile_eq_ok_iff.2 ⟨f, hf, rfl⟩, override_eq_error_iff.2 h⟩

/-- Options that are not refused make a configuration of what the file gives. -/
theorem exists_effective_iff (env : Environment) (read : Bytes → Option Bytes) (f : Layer) :
    (∃ c, Effective env f os c) ↔ (∀ other, ¬ Refuses env read os .language other) ∧
      ∀ other, ¬ Refuses env read os .filter other := by
  have herror : ∀ {other}, (said os .text).override (f.over (.ofEnvironment env)) = .error other ↔
      Refuses env read os .language other ∨
        (∀ other, ¬ Refuses env read os .language other) ∧ Refuses env read os .filter other :=
    override_eq_error_iff
  have hok : (∃ c, Effective env f os c) ↔
      ∃ c, (said os .text).override (f.over (.ofEnvironment env)) = .ok c :=
    exists_congr fun _ => override_eq_ok_iff.symm
  rw [hok, exists_eq_ok_iff]
  simp only [ne_eq, herror, not_or, not_and]
  constructor
  · intro h
    have hlanguage : ∀ other, ¬ Refuses env read os .language other := fun other => (h other).1
    exact ⟨hlanguage, fun other => (h other).2 hlanguage⟩
  · intro h other
    exact ⟨h.1 other, fun _ => h.2 other⟩

end Options

namespace CommandLine

section Layered

variable [PatternEngine] {os : List Occurrence} {env : Environment} {read : Bytes → Option Bytes}
  {f : Layer} {c : Configuration} {fault : Fault}

/-- Validation refuses a configuration that has a filter only for its compiler. -/
theorem Effective.check_eq_error_iff (h : Effective env f os c) :
    c.check = .error fault ↔ (compilerOf env f os).headD [] = [] ∧ fault = .noCompiler := by
  have hfilter : ∃ keep, c.filter = some keep := by
    cases hpattern : valueOf? .filter os with
    | none => exact ⟨_, h.filter_open hpattern⟩
    | some pattern =>
      obtain ⟨keep, -, hkeep⟩ := h.filter pattern hpattern
      exact ⟨_, hkeep⟩
  obtain ⟨keep, hkeep⟩ := hfilter
  rw [← h.compiler, Configuration.check, hkeep]
  rcases c.compiler with _ | ⟨_ | ⟨b, word⟩, words⟩ <;> simp [eq_comm]

/-- Making a configuration and validating it fails with the fault of the first stage that finds
one. -/
theorem ofConfig_config_eq_error_iff {format : Report.Format} :
    ((Options.said os format).config env read).bind Discovery.ofConfig = .error fault ↔
      Reports env read os fault := by
  rw [bind_eq_error_iff, Options.config_eq_error_iff]
  constructor
  · intro h
    rcases h with (hfile | ⟨hnofile, hlanguage | ⟨hnolanguage, hfilter⟩⟩) | ⟨c, hc, hcheck⟩
    · exact ⟨.file, hfile, List.forall_mem_nil _⟩
    · exact ⟨.language, hlanguage, List.forall_mem_singleton.2 hnofile⟩
    · refine ⟨.filter, hfilter, List.forall_mem_cons.2 ⟨hnofile, ?_⟩⟩
      exact List.forall_mem_singleton.2 hnolanguage
    · obtain ⟨f, hf, heffective⟩ := Options.config_eq_ok_iff.1 hc
      have hnofile := (Options.exists_fileGives_iff env).1 ⟨f, hf⟩
      obtain ⟨hnolanguage, hnofilter⟩ := (Options.exists_effective_iff env read f).1 ⟨c, heffective⟩
      rw [Discovery.ofConfig_eq_error_iff, heffective.check_eq_error_iff] at hcheck
      obtain ⟨hcompiler, rfl⟩ := hcheck
      refine ⟨.validation, .validation hf hcompiler, List.forall_mem_cons.2 ⟨hnofile, ?_⟩⟩
      exact List.forall_mem_cons.2 ⟨hnolanguage, List.forall_mem_singleton.2 hnofilter⟩
  · intro h
    obtain ⟨stage, hstage, hearlier⟩ := h
    cases stage with
    | file => exact .inl (.inl hstage)
    | language => exact .inl (.inr ⟨hearlier .file (by simp [Stage.earlier]), .inl hstage⟩)
    | filter =>
      have hnofile := hearlier .file (by simp [Stage.earlier])
      have hnolanguage := hearlier .language (by simp [Stage.earlier])
      exact .inl (.inr ⟨hnofile, .inr ⟨hnolanguage, hstage⟩⟩)
    | validation =>
      have hnolanguage := hearlier .language (by simp [Stage.earlier])
      have hnofilter := hearlier .filter (by simp [Stage.earlier])
      -- as no stage before it finds fault, there is a configuration to validate
      cases hstage with
      | validation hf hcompiler =>
        rename_i f
        obtain ⟨c, hc⟩ := (Options.exists_effective_iff env read f).2 ⟨hnolanguage, hnofilter⟩
        refine .inr ⟨c, Options.config_eq_ok_iff.2 ⟨f, hf, hc⟩, ?_⟩
        rw [Discovery.ofConfig_eq_error_iff, hc.check_eq_error_iff]
        exact ⟨hcompiler, rfl⟩

/-- No stage reports that a command failed. -/
theorem Reports.ofConfiguration (h : Reports env read os fault) : fault.OfConfiguration := by
  obtain ⟨stage, hstage, -⟩ := h
  cases hstage with
  | file _ _ _ hload => exact Configuration.ofConfiguration_of_load hload
  | _ => trivial

/-- **What a run is configured with.**  The arguments that spell options and headers, in any order
and mix, are understood if the format is one that is known.  The configuration is then the one of
the three layers; if one of them or the validation of the whole fails, the run ends with the fault
of the first stage that finds one and does nothing else.  Command lines that differ in how options
are spelled, and in the order of different kinds, run alike. -/
theorem configuration_layered {τ : Type} {args : List Bytes} (hargs : Spells args os)
    (hformat : ∀ name, valueOf? .format os = some name →
      ∃ format, Report.Format.ofName? name = some format)
    (env : Environment) (read : Bytes → Option Bytes) (host : Bool → Host τ) (s : RunState τ) :
    ∃ o, Options.ofArguments args = .ok o ∧
      (∀ c, o.config env read = .ok c ↔ ∃ f, FileGives read os f ∧ Effective env f os c) ∧
      (∀ fault, (o.config env read).bind Discovery.ofConfig = .error fault ↔
        Reports env read os fault) ∧
      (∀ fault, Reports env read os fault → run args env read host s =
        ⟨1, [], s.say (bytes "cmacros error: " ++ fault.shown ++ bytes "\n")⟩) ∧
      ∀ args' os', Spells args' os' → Interleaved os os' →
        run args' env read host s = run args env read host s := by
  obtain ⟨format, hsaid⟩ := Options.exists_ofOccurrences_eq_said hformat
  have hoptions : ∀ {args' os'}, Spells args' os' → Options.ofArguments args' =
      Options.ofOccurrences os' := by
    intro args' os' h
    rw [Options.ofArguments, occurrences_of_spells h]
    rfl
  have ho : Options.ofArguments args = .ok (.said os format) := (hoptions hargs).trans hsaid
  refine ⟨_, ho, fun c => Options.config_eq_ok_iff, fun fault => ofConfig_config_eq_error_iff,
    ?_, ?_⟩
  · intro fault hfault
    have herror : ((Options.said os format).config env read).bind Discovery.ofConfig =
        .error fault := ofConfig_config_eq_error_iff.2 hfault
    rw [run, ho]
    dsimp only
    rw [runOptions, verdict, herror]
    -- only a failed command has output of its own to show
    cases fault with
    | command failure => exact hfault.ofConfiguration.elim
    | _ => rfl
  · intro args' os' hargs' hinterleaved
    unfold run
    rw [hoptions hargs', hoptions hargs, Options.ofOccurrences_congr hinterleaved]

end Layered

/-- Options and headers in a mixed order. -/
def mixedArguments : List Bytes :=
  ["-D", "A", "a.h", "--extra-cflag=-g", "-Iinc", "--config", "s.toml", "-x=c++", "-DB=1",
    "-filter", "MAX_", "b.h"].map bytes

/-- What they say. -/
def mixedOccurrences : List Occurrence :=
  [.value .define (bytes "A"), .header (bytes "a.h"), .value .extraFlag (bytes "-g"),
    .value .includePath (bytes "inc"), .value .config (bytes "s.toml"),
    .value .language (bytes "c++"), .value .define (bytes "B=1"), .value .filter (bytes "MAX_"),
    .header (bytes "b.h")]

/-- The same, with the options first. -/
def sortedArguments : List Bytes :=
  ["--config=s.toml", "-x", "c++", "--filter=MAX_", "-I", "inc", "-DA", "-D", "B=1", "-extra-cflag",
    "-g", "--", "a.h", "b.h"].map bytes

/-- What these say. -/
def sortedOccurrences : List Occurrence :=
  [.value .config (bytes "s.toml"), .value .language (bytes "c++"), .value .filter (bytes "MAX_"),
    .value .includePath (bytes "inc"), .value .define (bytes "A"), .value .define (bytes "B=1"),
    .value .extraFlag (bytes "-g"), .header (bytes "a.h"), .header (bytes "b.h")]

/-- A settings file that gives a compiler, a flag and a header. -/
def mixedFile : Bytes :=
  bytes "[discovery]\ncc = [\"gcc\", \"-m32\"]\nextra_cflags = [\"-w\"]\nheaders = [\"f.h\"]\n"

/-- Each setting comes from the layer that gives it, and it is the same to give the options
first. -/
theorem configuration_layered_mixed :
    letI := PatternEngine.literal
    let env : Environment := { cc := some (bytes "cc"), cflags := some (bytes "-O1 -Wall") }
    let read := fun path => if path = bytes "s.toml" then some mixedFile else none
    let host := fun _ : Bool => Host.scripted (bytes "/tmp") 7 none
    Spells mixedArguments mixedOccurrences ∧ Spells sortedArguments sortedOccurrences ∧
      (∃ o c, Options.ofArguments mixedArguments = .ok o ∧ o.config env read = .ok c ∧
        c.headers = [bytes "a.h", bytes "b.h"] ∧ c.language = .cxx ∧
        c.compiler = [bytes "gcc", bytes "-m32"] ∧ c.flags = [bytes "-O1", bytes "-Wall"] ∧
        c.extraFlags =
          [bytes "-w", bytes "-Iinc", bytes "-DA", bytes "-DB=1", bytes "-g"] ∧
        c.dumpFlags = none ∧ c.verbose = false ∧
        c.filter.map (fun keep => [bytes "INT_MAX_", bytes "INT_MIN_"].map keep) =
          some [true, false] ∧
        ∃ f, FileGives read mixedOccurrences f ∧ Effective env f mixedOccurrences c) ∧
      run sortedArguments env read host { host := {} } =
        run mixedArguments env read host { host := {} } := by
  let _ := PatternEngine.literal
  intro env read host
  have hmixed : Spells mixedArguments mixedOccurrences := occurrences_eq_ok_iff.1 rfl
  have hsorted : Spells sortedArguments sortedOccurrences := occurrences_eq_ok_iff.1 rfl
  have hinterleaved : Interleaved mixedOccurrences sortedOccurrences := by
    rintro (_ | f | k)
    · rfl
    · cases f <;> rfl
    · cases k <;> rfl
  obtain ⟨o, ho, hconfig, -, -, hsame⟩ :=
    configuration_layered hmixed nofun env read host { host := {} }
  obtain rfl : Options.said mixedOccurrences .text = o := Except.ok.inj ho
  refine ⟨hmixed, hsorted, ?_, hsame _ _ hsorted hinterleaved⟩
  obtain ⟨c, hc, hfields⟩ : ∃ c, (Options.said mixedOccurrences .text).config env read = .ok c ∧
      c.headers = [bytes "a.h", bytes "b.h"] ∧ c.language = .cxx ∧
      c.compiler = [bytes "gcc", bytes "-m32"] ∧ c.flags = [bytes "-O1", bytes "-Wall"] ∧
      c.extraFlags = [bytes "-w", bytes "-Iinc", bytes "-DA", bytes "-DB=1", bytes "-g"] ∧
      c.dumpFlags = none ∧ c.verbose = false ∧
      c.filter.map (fun keep => [bytes "INT_MAX_", bytes "INT_MIN_"].map keep) =
        some [true, false] := ⟨_, rfl, rfl, rfl, rfl, rfl, rfl, rfl, rfl, rfl⟩
  obtain ⟨hheaders, hlanguage, hcompiler, hflags, hextra, hdump, hverbose, hfilter⟩ := hfields
  exact ⟨_, c, ho, hc, hheaders, hlanguage, hcompiler, hflags, hextra, hdump, hverbose, hfilter,
    (hconfig c).1 hc⟩

end CommandLine

end MacroConstants
