import MacroConstants.Proofs.Catalog
import MacroConstants.Proofs.Selection

/-!
# Dumps put together and rearranged

Every line of a dump is read for itself.  Its place decides the number that is reported for it, and
whether an earlier line has taken the name it defines, and nothing else.

* `Definition.renumber`, `Finding.renumber` : the same about a line with another number.
* `Dump.filterMap_numbered` : what is taken from renumbered lines is what was taken, renumbered.
* `Dump.definitions_join`, `Dump.warnings_join` : two dumps with a newline between them.
* `Definition.firsts_append` : the first definitions of a list that continues another one.
* `Discovery.run_join` : **a dump that continues another one adds the constants that the other does
  not define.**
* `Discovery.run_rearranged` : **where no name is defined twice, the order of the lines decides the
  order of the constants and the reported numbers only.**
-/

namespace MacroConstants

/-! ### Lines with other numbers -/

/-- The same definition on a line with another number. -/
def Definition.renumber (f : UInt32 → UInt32) (d : Definition) : Definition :=
  { d with line := f d.line }

/-- The same finding about a line with another number. -/
def Finding.renumber (f : UInt32 → UInt32) (d : Finding) : Finding := { d with line := f d.line }

namespace Definition

variable (f : UInt32 → UInt32) (d : Definition)

@[simp] theorem name_renumber : (d.renumber f).name = d.name := rfl

@[simp] theorem constant_renumber : (d.renumber f).constant = d.constant := rfl

end Definition

namespace Dump

variable {α : Type} {text : Bytes}

theorem definition?_renumber (keep : Selector) (f : UInt32 → UInt32) (x : Line × UInt32) :
    definition? keep (x.map id f) = (definition? keep x).map (Definition.renumber f) := by
  obtain ⟨line, number⟩ := x
  cases line with
  | object name text =>
    simp only [Prod.map, id_eq, definition?]
    split <;> rfl
  | _ => rfl

theorem warning?_renumber (f : UInt32 → UInt32) (x : Line × UInt32) :
    warning? (x.map id f) = (warning? x).map (Finding.renumber f) := by
  obtain ⟨line, number⟩ := x
  cases line <;> rfl

/-- What is taken from renumbered lines is what was taken from the lines, renumbered. -/
theorem filterMap_numbered {take : Line × UInt32 → Option α} {renumber : α → α}
    {f : UInt32 → UInt32} (h : ∀ x, take (x.map id f) = (take x).map renumber)
    (xs : List (Line × UInt32)) :
    (xs.map (Prod.map id f)).filterMap take = (xs.filterMap take).map renumber := by
  rw [List.filterMap_map, List.map_filterMap]
  exact List.filterMap_congr fun x _ => h x

/-! ### One dump after another -/

/-- The number of a line that comes `count` lines later, counted in 32 bits. -/
def later (count : ℕ) (number : UInt32) : UInt32 := number + count.toUInt32

/-- The lines after a dump are numbered on. -/
theorem numbered_join (a b : Bytes) :
    numbered (a ++ ascii '\n' :: b) =
      numbered a ++ (numbered b).map (Prod.map id (later a.lines.length)) := by
  have hnumber : ∀ i : ℕ,
      (a.lines.length + i + 1).toUInt32 = later a.lines.length (i + 1).toUInt32 := fun i => by
    rw [later, Nat.add_assoc, Nat.add_comm]
    exact UInt32.ofNat_add _ _
  unfold numbered
  rw [Bytes.lines_join, List.zipIdx_append, List.map_append, Nat.zero_add,
    (List.zipIdx_eq_map_add : b.lines.zipIdx a.lines.length = _), List.map_map, List.map_map]
  exact congrArg _ (List.map_congr_left fun x _ => Prod.ext rfl (hnumber x.2))

/-- What is taken from the lines after a dump is taken from lines that are numbered on. -/
theorem filterMap_numbered_join {take : Line × UInt32 → Option α}
    {renumber : (UInt32 → UInt32) → α → α}
    (h : ∀ f x, take (x.map id f) = (take x).map (renumber f)) (a b : Bytes) :
    (numbered (a ++ ascii '\n' :: b)).filterMap take =
      (numbered a).filterMap take ++
        ((numbered b).filterMap take).map (renumber (later a.lines.length)) := by
  rw [numbered_join, List.filterMap_append, filterMap_numbered (h _)]

theorem definitions_join (keep : Selector) (a b : Bytes) :
    definitions keep (a ++ ascii '\n' :: b) =
      definitions keep a ++ (definitions keep b).map (Definition.renumber (later a.lines.length)) :=
  filterMap_numbered_join (definition?_renumber keep) a b

theorem warnings_join (a b : Bytes) :
    warnings (a ++ ascii '\n' :: b) =
      warnings a ++ (warnings b).map (Finding.renumber (later a.lines.length)) :=
  filterMap_numbered_join warning?_renumber a b

/-- The lines of a dump have numbers up to the number of lines. -/
theorem toNat_le_of_mem_numbered {x : Line × UInt32} (h : x ∈ numbered text) :
    x.2.toNat ≤ text.lines.length := by
  obtain ⟨⟨line, i⟩, hline, rfl⟩ := List.mem_map.1 h
  have hi := (List.getElem?_eq_some_iff.1 (List.mem_zipIdx_iff_getElem?.1 hline)).1
  exact (Nat.mod_le _ _).trans hi

/-- What is taken from the lines of a dump has the number of a line. -/
theorem toNat_le_of_mem_filterMap {take : Line × UInt32 → Option α} {number : α → UInt32}
    (h : ∀ x a, take x = some a → number a = x.2) {a : α}
    (ha : a ∈ (numbered text).filterMap take) :
    (number a).toNat ≤ text.lines.length := by
  obtain ⟨x, hx, hax⟩ := List.mem_filterMap.1 ha
  rw [h x a hax]
  exact toNat_le_of_mem_numbered hx

/-- Numbers that fit into 32 bits are counted on without wrapping around. -/
theorem toNat_later {count : ℕ} {number : UInt32} (h : number.toNat + count < 2 ^ 32) :
    (later count number).toNat = number.toNat + count := by
  have hcount : count.toUInt32.toNat = count := Nat.mod_eq_of_lt (by omega)
  rw [later, UInt32.toNat_add, hcount, Nat.mod_eq_of_lt h]

end Dump

/-! ### First definitions -/

namespace Definition

variable {taken : List Bytes} {ds es : List Definition}

theorem firsts_append :
    firsts taken (ds ++ es) =
      firsts taken ds ++ firsts (taken ++ (firsts taken ds).map name) es := by
  induction ds generalizing taken with
  | nil => simp [firsts]
  | cons d ds ih =>
    -- a first definition takes its name, and then stands first among those found so far
    by_cases hd : d.name ∈ taken
    · simp only [List.cons_append, firsts, hd, if_true, ih]
    · simp only [List.cons_append, firsts, hd, if_false, ih, List.map_cons, List.append_assoc,
        List.nil_append]

/-- Definitions of names that are taken count for nothing. -/
theorem firsts_filter_notMem {names : List Bytes} (h : ∀ name ∈ names, name ∈ taken) :
    firsts taken (ds.filter (·.name ∉ names)) = firsts taken ds := by
  induction ds generalizing taken with
  | nil => rfl
  | cons d ds ih =>
    by_cases hd : d.name ∈ names
    · rw [List.filter_cons_of_neg (by simpa using hd), firsts, if_pos (h _ hd), ih h]
    · rw [List.filter_cons_of_pos (by simpa using hd), firsts, firsts, ih h,
        ih fun name hname => List.mem_append_left _ (h name hname)]

/-- The first definitions of names that are not taken. -/
theorem firsts_eq_filter (taken : List Bytes) (ds : List Definition) :
    firsts taken ds = (firsts [] ds).filter (·.name ∉ taken) := by
  have hagree : Agree (fun name => name ∉ taken) [] taken := fun name hname =>
    iff_of_false (by simpa using hname) List.not_mem_nil
  -- of the definitions that are left, the same are first with and without the taken names
  rw [← firsts_filter_notMem fun _ => id]
  exact (filter_firsts_repeats hagree ds).1

theorem firsts_map_renumber (f : UInt32 → UInt32) :
    firsts taken (ds.map (renumber f)) = (firsts taken ds).map (renumber f) := by
  induction ds generalizing taken with
  | nil => rfl
  | cons d ds ih =>
    by_cases hd : d.name ∈ taken
    · simp only [List.map_cons, firsts, name_renumber, hd, if_true, ih]
    · simp only [List.map_cons, firsts, name_renumber, hd, if_false, ih]

theorem map_name_renumber (f : UInt32 → UInt32) (ds : List Definition) :
    (ds.map (renumber f)).map name = ds.map name := by
  rw [List.map_map]
  exact List.map_congr_left fun d _ => name_renumber f d

theorem map_constant_renumber (f : UInt32 → UInt32) (ds : List Definition) :
    (ds.map (renumber f)).map constant = ds.map constant := by
  rw [List.map_map]
  exact List.map_congr_left fun d _ => constant_renumber f d

/-- Where all names differ, every definition is the first of its name. -/
theorem firsts_eq_self (hnames : (ds.map name).Nodup) (htaken : ∀ d ∈ ds, d.name ∉ taken) :
    firsts taken ds = ds ∧ repeats taken ds = [] := by
  induction ds generalizing taken with
  | nil => exact ⟨rfl, rfl⟩
  | cons d ds ih =>
    obtain ⟨hd, hds⟩ := List.nodup_cons.1 hnames
    have hnot : d.name ∉ taken := htaken d List.mem_cons_self
    have hrest : ∀ e ∈ ds, e.name ∉ taken ++ [d.name] := fun e he => by
      have hne : e.name ≠ d.name := fun h => hd (h ▸ List.mem_map_of_mem he)
      simpa [hne] using htaken e (List.mem_cons_of_mem _ he)
    obtain ⟨hfirsts, hrepeats⟩ := ih hds hrest
    simp only [firsts, repeats, hnot, if_false, hfirsts, hrepeats, and_self]

end Definition

namespace Discovery

open Dump

variable {τ : Type} {d : Discovery} {h : Host τ} {s : RunState τ} {text : Bytes}

/-- The preprocessor prints a text. -/
def Prints (d : Discovery) (h : Host τ) (s : RunState τ) (text : Bytes) : Prop :=
  (dump h d.config s).1 = .ok text

/-- What is printed decides the constants and the findings. -/
theorem run_of_prints (hprints : d.Prints h s text) :
    (d.run h s).1 = .ok (ofDump d.keep text).1 ∧
      (d.run h s).2.diagnostics.recorded = s.diagnostics.recorded ++ (ofDump d.keep text).2 := by
  have hrun := run_of_dump (Prod.ext hprints rfl : dump h d.config s = (.ok text, _))
  rw [hrun, RunState.recorded_reportAll, diagnostics_dump]
  exact ⟨rfl, rfl⟩

theorem items_ofDump_join (keep : Selector) (a b : Bytes) :
    (ofDump keep (a ++ ascii '\n' :: b)).1.items =
      (ofDump keep a).1.items ++
        (ofDump keep b).1.items.filter (·.name ∉ (ofDump keep a).1.names) := by
  have hnames : (ofDump keep a).1.names =
      (Definition.firsts [] (definitions keep a)).map Definition.name := by
    rw [Catalog.names, items_ofDump, List.map_map]
    exact List.map_congr_left fun d _ => d.name_constant
  have hfilter : (fun c : Constant => decide (c.name ∉ (ofDump keep a).1.names)) ∘
      Definition.constant = fun d : Definition => decide (d.name ∉ (ofDump keep a).1.names) :=
    funext fun d => by simp
  rw [items_ofDump, definitions_join, Definition.firsts_append, List.map_append, ← items_ofDump,
    List.nil_append, ← hnames, Definition.firsts_map_renumber, Definition.map_constant_renumber,
    Definition.firsts_eq_filter, items_ofDump keep b, List.filter_map, hfilter]

/-- **A dump that continues another one.**  The macros and the warnings of two dumps with a newline
between them are those of the first and then those of the second, whose lines are counted on after
the lines of the first.  A discovery finds in both together what it finds in the first and then, in
their order, those constants of the second whose names the first does not define. -/
theorem run_join (keep : Selector) {a b : Bytes}
    (hlen : a.lines.length + b.lines.length < 2 ^ 32) :
    definitions keep (a ++ ascii '\n' :: b) = definitions keep a ++
        (definitions keep b).map (Definition.renumber (later a.lines.length)) ∧
      warnings (a ++ ascii '\n' :: b) =
        warnings a ++ (warnings b).map (Finding.renumber (later a.lines.length)) ∧
      (∀ e ∈ definitions keep b,
        (later a.lines.length e.line).toNat = e.line.toNat + a.lines.length) ∧
      (∀ f ∈ warnings b, (later a.lines.length f.line).toNat = f.line.toNat + a.lines.length) ∧
      ∀ {τ : Type} (d : Discovery) (h₁ h₂ h : Host τ) (s₁ s₂ s : RunState τ), d.keep = keep →
        d.Prints h₁ s₁ a → d.Prints h₂ s₂ b → d.Prints h s (a ++ ascii '\n' :: b) →
        ∃ k₁ k₂ k, (d.run h₁ s₁).1 = .ok k₁ ∧ (d.run h₂ s₂).1 = .ok k₂ ∧ (d.run h s).1 = .ok k ∧
          k.items = k₁.items ++ k₂.items.filter (·.name ∉ k₁.names) := by
  refine ⟨definitions_join keep a b, warnings_join a b, fun e he => ?_, fun f hf => ?_, ?_⟩
  · have := toNat_le_of_mem_filterMap (fun x e => line_of_definition?) he
    exact toNat_later (by omega)
  · have := toNat_le_of_mem_filterMap (fun x f => line_of_warning?) hf
    exact toNat_later (by omega)
  · rintro τ d h₁ h₂ h s₁ s₂ s rfl ha hb hab
    exact ⟨_, _, _, (run_of_prints ha).1, (run_of_prints hb).1, (run_of_prints hab).1,
      items_ofDump_join d.keep a b⟩

/-- A dump with a name that the other one defines as well. -/
def firstDump : Bytes := bytes "#define A 1\n#define B 2\n"

/-- A dump with a line that cannot be read, a repeated name and a new one. -/
def secondDump : Bytes := bytes "int x;\n#define B 3\r\n#define C B"

/-- A host that follows a script. -/
def sampleHost : Host Script := Host.scripted (bytes "/tmp") 1 none

/-- A state in which the preprocessor is about to print a text. -/
def printing (text : Bytes) : RunState Script :=
  { host := { results := [{ result := { out := text } }] } }

theorem run_join_overlap :
    firstDump.lines.length + secondDump.lines.length < 2 ^ 32 ∧
      (warnings (firstDump ++ ascii '\n' :: secondDump)).map (·.line) = [4] ∧
      ∃ k₁ k₂ k,
        (sampleDiscovery.run sampleHost (printing firstDump)).1 = .ok k₁ ∧
        (sampleDiscovery.run sampleHost (printing secondDump)).1 = .ok k₂ ∧
        (sampleDiscovery.run sampleHost
          (printing (firstDump ++ ascii '\n' :: secondDump))).1 = .ok k ∧
        k.items = k₁.items ++ k₂.items.filter (·.name ∉ k₁.names) ∧
        k.names = [bytes "A", bytes "B", bytes "C"] := by
  have hlen : firstDump.lines.length + secondDump.lines.length < 2 ^ 32 := by decide
  obtain ⟨-, hwarnings, -, -, hrun⟩ := run_join Selector.default hlen
  obtain ⟨k₁, k₂, k, h₁, h₂, h, hitems⟩ := hrun sampleDiscovery sampleHost sampleHost sampleHost
    (printing firstDump) (printing secondDump) (printing (firstDump ++ ascii '\n' :: secondDump))
    rfl rfl rfl rfl
  refine ⟨hlen, by rw [hwarnings]; decide, k₁, k₂, k, h₁, h₂, h, hitems, ?_⟩
  have hk : k = (ofDump Selector.default (firstDump ++ ascii '\n' :: secondDump)).1 :=
    (Except.ok.inj h).symm
  rw [hk]
  decide

end Discovery

/-! ### Lines in another order -/

namespace Dump

variable {α : Type} {text text' : Bytes}

/-- Forgets the number of a line: line zero is no particular line. -/
def noLine (_ : UInt32) : UInt32 := 0

/-- Without their numbers, the lines of a dump in another order are the same lines. -/
theorem perm_numbered (h : text'.lines.Perm text.lines) :
    ((numbered text').map (Prod.map id noLine)).Perm
      ((numbered text).map (Prod.map id noLine)) := by
  have hlines : ∀ t : Bytes, (numbered t).map (Prod.map id noLine) =
      ((t.lines.map readLine).zipIdx.map Prod.fst).map (·, 0) := fun t => by
    rw [numbered_eq, List.map_map, List.map_map]
    rfl
  rw [hlines, hlines, List.zipIdx_map_fst, List.zipIdx_map_fst]
  exact (h.map readLine).map _

/-- What is taken from the lines of a dump is taken in another order from the lines in another
order, up to the numbers. -/
theorem perm_filterMap_numbered {take : Line × UInt32 → Option α}
    {renumber : (UInt32 → UInt32) → α → α}
    (htake : ∀ f x, take (x.map id f) = (take x).map (renumber f))
    (h : text'.lines.Perm text.lines) :
    (((numbered text').filterMap take).map (renumber noLine)).Perm
      (((numbered text).filterMap take).map (renumber noLine)) := by
  rw [← filterMap_numbered (htake _), ← filterMap_numbered (htake _)]
  exact (perm_numbered h).filterMap take

theorem perm_definitions (keep : Selector) (h : text'.lines.Perm text.lines) :
    ((definitions keep text').map (Definition.renumber noLine)).Perm
      ((definitions keep text).map (Definition.renumber noLine)) :=
  perm_filterMap_numbered (definition?_renumber keep) h

theorem perm_warnings (h : text'.lines.Perm text.lines) :
    ((warnings text').map (Finding.renumber noLine)).Perm
      ((warnings text).map (Finding.renumber noLine)) :=
  perm_filterMap_numbered warning?_renumber h

end Dump

namespace Discovery

open Dump

variable {keep : Selector} {text text' : Bytes}

/-- Where no name is defined twice, every definition becomes a constant and nothing else is reported
than lines that cannot be read. -/
theorem ofDump_of_nodup (h : ((definitions keep text).map Definition.name).Nodup) :
    (ofDump keep text).1.items = (definitions keep text).map Definition.constant ∧
      (ofDump keep text).2 = warnings text := by
  obtain ⟨hfirsts, hrepeats⟩ := Definition.firsts_eq_self h fun _ _ => List.not_mem_nil
  rw [items_ofDump, findings_ofDump, repeated, hfirsts, hrepeats, List.map_nil, List.append_nil]
  exact ⟨rfl, rfl⟩

/-- **The lines of a dump in another order.**  If no two of the definitions that are kept have one
name, two discoveries that read the same lines in different orders find constants of the same names,
and every name is looked up to the same constant, with the same text and just as much settled.  The
findings are the warnings about the same unreadable lines, up to their order and the numbers of
their lines. -/
theorem run_rearranged (d : Discovery) {τ τ' : Type} (h : Host τ) (h' : Host τ') (s : RunState τ)
    (s' : RunState τ') (hprints : d.Prints h s text) (hprints' : d.Prints h' s' text')
    (hdistinct : ((definitions d.keep text).map Definition.name).Nodup)
    (hlines : text'.lines.Perm text.lines) :
    ∃ k k', (d.run h s).1 = .ok k ∧ (d.run h' s').1 = .ok k' ∧ k'.names.Perm k.names ∧
      (∀ name, k'.find? name = k.find? name) ∧
      (d.run h s).2.diagnostics.recorded = s.diagnostics.recorded ++ warnings text ∧
      (d.run h' s').2.diagnostics.recorded = s'.diagnostics.recorded ++ warnings text' ∧
      ((warnings text').map (Finding.renumber noLine)).Perm
        ((warnings text).map (Finding.renumber noLine)) := by
  have hdefinitions := perm_definitions d.keep hlines
  -- a name does not depend on the number, so the names differ in the other order as well
  have hdistinct' : ((definitions d.keep text').map Definition.name).Nodup := by
    have hnames := hdefinitions.map Definition.name
    rw [Definition.map_name_renumber, Definition.map_name_renumber] at hnames
    exact hnames.nodup_iff.2 hdistinct
  obtain ⟨hitems, hfindings⟩ := ofDump_of_nodup hdistinct
  obtain ⟨hitems', hfindings'⟩ := ofDump_of_nodup hdistinct'
  have hperm : (ofDump d.keep text').1.items.Perm (ofDump d.keep text).1.items := by
    have hconstants := hdefinitions.map Definition.constant
    rwa [Definition.map_constant_renumber, Definition.map_constant_renumber, ← hitems,
      ← hitems'] at hconstants
  obtain ⟨hrun, hrecorded⟩ := run_of_prints hprints
  obtain ⟨hrun', hrecorded'⟩ := run_of_prints hprints'
  rw [hfindings] at hrecorded
  rw [hfindings'] at hrecorded'
  exact ⟨_, _, hrun, hrun', hperm.map _, Catalog.find?_eq_of_perm hperm, hrecorded, hrecorded',
    perm_warnings hlines⟩

/-- A dump with a literal, an expression and two lines that cannot be read. -/
def orderedDump : Bytes := bytes "#define A 1\r\nint x;\n#define B A\nint y;\n"

/-- The same lines in another order. -/
def shuffledDump : Bytes := bytes "int y;\n#define B A\n\nint x;\n#define A 1\r"

theorem run_rearranged_shuffled :
    ((definitions Selector.default orderedDump).map Definition.name).Nodup ∧
      shuffledDump.lines.Perm orderedDump.lines ∧
      ∃ k k', (sampleDiscovery.run sampleHost (printing orderedDump)).1 = .ok k ∧
        (sampleDiscovery.run sampleHost (printing shuffledDump)).1 = .ok k' ∧
        k.names = [bytes "A", bytes "B"] ∧ k'.names = [bytes "B", bytes "A"] ∧
        ∀ name, k'.find? name = k.find? name := by
  have hdistinct : ((definitions sampleDiscovery.keep orderedDump).map Definition.name).Nodup := by
    decide
  have hlines : shuffledDump.lines.Perm orderedDump.lines := by decide
  obtain ⟨k, k', h, h', -, hfind, -⟩ := run_rearranged sampleDiscovery sampleHost sampleHost
    (printing orderedDump) (printing shuffledDump) rfl rfl hdistinct hlines
  have hk : k = (ofDump Selector.default orderedDump).1 := (Except.ok.inj h).symm
  have hk' : k' = (ofDump Selector.default shuffledDump).1 := (Except.ok.inj h').symm
  exact ⟨hdistinct, hlines, k, k', h, h', by rw [hk]; decide, by rw [hk']; decide, hfind⟩

end Discovery

end MacroConstants
