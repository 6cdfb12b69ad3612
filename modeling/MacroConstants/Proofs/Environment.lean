import MacroConstants.Proofs.Words

/-!
# Which compiler an environment gives

The words of `CC` come first.  If it has none, the candidates are looked up one after the other,
each in all directories of the search path, so that a later candidate is found only if no directory
holds an earlier one; and a file that may not be executed, or a directory, is passed over.  But a
`CC` of white space and empty quotes is set and has no word: it is not empty, so no candidate is
looked up.

* `Environment.FoundAt`, `Environment.Chosen` : the lookup of one program, and of the candidates.
* `Environment.Located` : the compiler as its description has it.
* `Environment.Overshadowed` : the environments in which a `CC` without words hides a candidate.
* `Environment.compiler_located` : **the compiler is the one described, but in these.**
-/

namespace MacroConstants

open Words

variable {env : Environment} {program path : Bytes} {result : List Bytes}

theorem SearchDirectory.holds_eq_true_iff {d : SearchDirectory} :
    d.holds program = true ↔ (program, FileKind.executable) ∈ d.entries := by
  simp [SearchDirectory.holds]

namespace Environment

/-! ### Looking programs up -/

/-- No directory has an executable file of that name. -/
def Absent (env : Environment) (program : Bytes) : Prop :=
  ∀ d ∈ env.path, (program, FileKind.executable) ∉ d.entries

/-- The first directory that has an executable file of that name makes the path. -/
def FoundAt (env : Environment) (program path : Bytes) : Prop :=
  ∃ before d after, env.path = before ++ d :: after ∧
    (program, FileKind.executable) ∈ d.entries ∧
    (∀ d' ∈ before, (program, FileKind.executable) ∉ d'.entries) ∧
    path = inDirectory d.path program

/-- The first candidate that is in any directory. -/
def Chosen (env : Environment) (path : Bytes) : Prop :=
  ∃ tried program others, candidates = tried ++ program :: others ∧ env.FoundAt program path ∧
    ∀ earlier ∈ tried, env.Absent earlier

theorem findProgram?_eq_none_iff : env.findProgram? program = none ↔ env.Absent program := by
  simp only [findProgram?, Option.map_eq_none_iff, List.find?_eq_none,
    SearchDirectory.holds_eq_true_iff, Absent]

theorem findProgram?_eq_some_iff :
    env.findProgram? program = some path ↔ env.FoundAt program path := by
  simp only [findProgram?, Option.map_eq_some_iff, List.find?_eq_some_iff_append,
    Bool.not_eq_true', ← Bool.not_eq_true, SearchDirectory.holds_eq_true_iff]
  constructor
  · rintro ⟨d, ⟨hd, before, after, hpath, hbefore⟩, rfl⟩
    exact ⟨before, d, after, hpath, hd, hbefore, rfl⟩
  · rintro ⟨before, d, after, hpath, hd, hbefore, rfl⟩
    exact ⟨d, ⟨hd, before, after, hpath, hbefore⟩, rfl⟩

theorem findSome?_candidates_eq_some_iff :
    candidates.findSome? env.findProgram? = some path ↔ env.Chosen path := by
  simp only [List.findSome?_eq_some_iff, findProgram?_eq_some_iff, findProgram?_eq_none_iff, Chosen]

theorem findSome?_candidates_eq_none_iff :
    candidates.findSome? env.findProgram? = none ↔ ∀ program ∈ candidates, env.Absent program := by
  simp only [List.findSome?_eq_none_iff, findProgram?_eq_none_iff]

theorem Chosen.unique {path' : Bytes} (h : env.Chosen path) (h' : env.Chosen path') :
    path = path' := by
  rw [← findSome?_candidates_eq_some_iff] at h h'
  exact Option.some.inj (h.symm.trans h')

theorem Chosen.not_absent (h : env.Chosen path) :
    ¬ ∀ program ∈ candidates, env.Absent program := by
  rw [← findSome?_candidates_eq_none_iff, findSome?_candidates_eq_some_iff.2 h]
  exact Option.some_ne_none path

/-! ### The compiler -/

/-- `CC` is unset, or has no word. -/
def Unnamed (env : Environment) : Prop := ∀ text ∈ env.cc, Wordless text

/-- The compiler as its description has it. -/
inductive Located (env : Environment) : List Bytes → Prop
  | named {text : Bytes} : env.cc = some text → ¬ Wordless text → Located env (splitWords text)
  | found {path : Bytes} : env.Unnamed → env.Chosen path → Located env [path]
  | nowhere : env.Unnamed → (∀ program ∈ candidates, env.Absent program) → Located env []

/-- `CC` is not empty but has no word, and a candidate is in some directory. -/
def Overshadowed (env : Environment) : Prop :=
  ∃ text, env.cc = some text ∧ text ≠ [] ∧ Wordless text ∧
    ¬ ∀ program ∈ candidates, env.Absent program

theorem compiler_of_cc {text : Bytes} (h : env.cc = some text) (hne : text ≠ []) :
    env.compiler = splitWords text := by
  obtain ⟨b, rest, rfl⟩ := List.exists_cons_of_ne_nil hne
  rw [compiler, h]

/-- Without `CC` the candidates are looked up. -/
theorem compiler_of_forall_cc (h : ∀ text ∈ env.cc, text = []) :
    env.compiler = (candidates.findSome? env.findProgram?).toList := by
  unfold compiler
  split
  · rename_i hcc
    cases h _ hcc
  · rfl

/-- Where `CC` has no word, looking the candidates up gives the compiler as described. -/
theorem Unnamed.located (h : env.Unnamed) :
    env.Located (candidates.findSome? env.findProgram?).toList := by
  cases hfound : candidates.findSome? env.findProgram? with
  | none => exact .nowhere h (findSome?_candidates_eq_none_iff.1 hfound)
  | some path => exact .found h (findSome?_candidates_eq_some_iff.1 hfound)

theorem exists_located (env : Environment) : ∃ result, env.Located result := by
  by_cases h : env.Unnamed
  · exact ⟨_, h.located⟩
  · obtain ⟨text, hcc, hword⟩ : ∃ text ∈ env.cc, ¬ Wordless text := by simpa [Unnamed] using h
    exact ⟨_, .named hcc hword⟩

theorem Located.unique {result' : List Bytes} (h : env.Located result) (h' : env.Located result') :
    result = result' := by
  cases h with
  | named hcc hword =>
    cases h' with
    | named hcc' _ => rw [Option.some.inj (hcc.symm.trans hcc')]
    | found hunnamed _ => exact absurd (hunnamed _ hcc) hword
    | nowhere hunnamed _ => exact absurd (hunnamed _ hcc) hword
  | found hunnamed hchosen =>
    cases h' with
    | named hcc hword => exact absurd (hunnamed _ hcc) hword
    | found _ hchosen' => rw [hchosen.unique hchosen']
    | nowhere _ habsent => exact absurd habsent hchosen.not_absent
  | nowhere hunnamed habsent =>
    cases h' with
    | named hcc hword => exact absurd (hunnamed _ hcc) hword
    | found _ hchosen => exact absurd habsent hchosen.not_absent
    | nowhere _ _ => rfl

/-- A `CC` without words hides the candidates. -/
theorem Overshadowed.compiler_eq (h : env.Overshadowed) : env.compiler = [] := by
  obtain ⟨text, hcc, hne, hwordless, -⟩ := h
  rw [compiler_of_cc hcc hne]
  exact splitWords_eq_nil_iff.2 hwordless

theorem Overshadowed.not_located_nil (h : env.Overshadowed) : ¬ env.Located [] := by
  obtain ⟨text, hcc, -, hwordless, hsome⟩ := h
  intro hlocated
  generalize hresult : ([] : List Bytes) = result at hlocated
  cases hlocated with
  | named hcc' hword =>
    obtain rfl := Option.some.inj (hcc.symm.trans hcc')
    exact hword hwordless
  | found _ _ => cases hresult
  | nowhere _ habsent => exact hsome habsent

theorem located_compiler (h : ¬ env.Overshadowed) : env.Located env.compiler := by
  by_cases hset : ∀ text ∈ env.cc, text = []
  · have hunnamed : env.Unnamed := by
      intro text hcc
      rw [hset text hcc]
      exact .nil
    rw [compiler_of_forall_cc hset]
    exact hunnamed.located
  · obtain ⟨text, hcc, hne⟩ : ∃ text, env.cc = some text ∧ text ≠ [] := by simpa using hset
    rw [compiler_of_cc hcc hne]
    by_cases hwordless : Wordless text
    · have habsent : ∀ program ∈ candidates, env.Absent program := by
        by_contra hsome
        exact h ⟨text, hcc, hne, hwordless, hsome⟩
      have hunnamed : env.Unnamed := by
        intro text' hcc'
        rwa [← Option.some.inj (hcc.symm.trans hcc')]
      rw [splitWords_eq_nil_iff.2 hwordless]
      exact .nowhere hunnamed habsent
    · exact .named hcc hwordless

/-- No word of the compiler is empty: what is found has the name of a candidate in it. -/
theorem ne_nil_of_mem_compiler (hnul : ∀ text ∈ env.cc, 0 ∉ text) {word : Bytes}
    (h : word ∈ env.compiler) : word ≠ [] := by
  by_cases hset : ∀ text ∈ env.cc, text = []
  · rw [compiler_of_forall_cc hset, Option.mem_toList] at h
    obtain ⟨program, hprogram, hfound⟩ := List.exists_of_findSome?_eq_some h
    exact ne_nil_of_findProgram? hprogram hfound
  · obtain ⟨text, hcc, hne⟩ : ∃ text, env.cc = some text ∧ text ≠ [] := by simpa using hset
    rw [compiler_of_cc hcc hne, splitWords_eq (hnul text hcc)] at h
    exact ne_nil_of_mem_scan h

/-- The settings of an environment can be used exactly if it gives a compiler. -/
theorem check_ofEnvironment (hnul : ∀ text ∈ env.cc, 0 ∉ text) :
    (Configuration.ofEnvironment env).check =
      if env.compiler = [] then .error .noCompiler else .ok Selector.default := by
  have hword : ∀ word ∈ env.compiler, word ≠ [] := fun _ => ne_nil_of_mem_compiler hnul
  unfold Configuration.check Configuration.ofEnvironment
  cases hcompiler : env.compiler with
  | nil => rfl
  | cons word words =>
    rw [hcompiler] at hword
    obtain ⟨b, rest, rfl⟩ := List.exists_cons_of_ne_nil (hword word List.mem_cons_self)
    rfl

/-- **The compiler of an environment.**  Its description always names exactly one: the words of `CC`
if it has any, else the path of the first candidate that is in any directory, in the first directory
that has it, else nothing.  This is the compiler, unless `CC` is a text that is not empty but has no
word while a candidate is in some directory; then nothing is.  So the settings of the environment,
which lack a compiler exactly if nothing is, are refused in this case, and else exactly if there is
no word and no candidate. -/
theorem compiler_located (env : Environment) :
    (∃! result, env.Located result) ∧
    (env.Located env.compiler ↔ ¬ env.Overshadowed) ∧
    (env.compiler = [] ↔
      env.Overshadowed ∨ env.Unnamed ∧ ∀ program ∈ candidates, env.Absent program) ∧
    ((∀ text ∈ env.cc, 0 ∉ text) → (Configuration.ofEnvironment env).check =
      if env.compiler = [] then .error .noCompiler else .ok Selector.default) := by
  have hiff : env.Located env.compiler ↔ ¬ env.Overshadowed := by
    refine ⟨fun hlocated hover => ?_, located_compiler⟩
    rw [hover.compiler_eq] at hlocated
    exact hover.not_located_nil hlocated
  obtain ⟨result, hresult⟩ := env.exists_located
  refine ⟨⟨result, hresult, fun _ h => h.unique hresult⟩, hiff, ⟨fun hnothing => ?_, ?_⟩,
    check_ofEnvironment⟩
  · by_cases hover : env.Overshadowed
    · exact .inl hover
    have hlocated := hiff.2 hover
    generalize env.compiler = compiler at hnothing hlocated
    cases hlocated with
    | named _ hword => exact absurd (splitWords_eq_nil_iff.1 hnothing) hword
    | found _ _ => cases hnothing
    | nowhere hunnamed habsent => exact .inr ⟨hunnamed, habsent⟩
  · rintro (hover | ⟨hunnamed, habsent⟩)
    · exact hover.compiler_eq
    · have hnot : ¬ env.Overshadowed := fun ⟨_, _, _, _, hsome⟩ => hsome habsent
      exact (hiff.2 hnot).unique (.nowhere hunnamed habsent)

/-- `CC` is empty.  A directory is named like the first candidate, which is behind the second. -/
def crowded : Environment where
  cc := some []
  path := [⟨bytes "/opt/bin", [(bytes "cc", .directory), (bytes "gcc", .executable)]⟩,
    ⟨bytes "/usr/bin", [(bytes "cc", .executable)]⟩]

theorem compiler_located_crowded :
    (∀ text ∈ crowded.cc, 0 ∉ text) ∧ crowded.Located [bytes "/usr/bin/cc"] ∧
      (Configuration.ofEnvironment crowded).check = .ok Selector.default := by
  have hnul : ∀ text ∈ crowded.cc, 0 ∉ text := by
    rintro _ ⟨⟩
    exact List.not_mem_nil
  obtain ⟨-, hlocated, -, hcheck⟩ := compiler_located crowded
  have hnot : ¬ crowded.Overshadowed := by
    rintro ⟨_, ⟨⟩, hne, -⟩
    exact hne rfl
  exact ⟨hnul, hlocated.2 hnot, hcheck hnul⟩

/-- `CC` is a blank, and the first candidate can be found. -/
def blank : Environment where
  cc := some (bytes " ")
  path := [⟨bytes "/usr/bin", [(bytes "cc", .executable)]⟩]

/-- The compiler should be the candidate, and is nothing. -/
theorem compiler_blank :
    blank.Located [bytes "/usr/bin/cc"] ∧ blank.compiler = [] ∧ ¬ blank.Located blank.compiler ∧
      (Configuration.ofEnvironment blank).check = .error .noCompiler := by
  have hwordless : Wordless (bytes " ") := .separator rfl .nil
  have hunnamed : blank.Unnamed := by
    rintro text ⟨⟩
    exact hwordless
  have hchosen : blank.Chosen (bytes "/usr/bin/cc") :=
    findSome?_candidates_eq_some_iff.1 (by decide)
  have hover : blank.Overshadowed :=
    ⟨bytes " ", rfl, by decide, hwordless, hchosen.not_absent⟩
  refine ⟨.found hunnamed hchosen, hover.compiler_eq, ?_, rfl⟩
  rw [hover.compiler_eq]
  exact hover.not_located_nil

end Environment

end MacroConstants
