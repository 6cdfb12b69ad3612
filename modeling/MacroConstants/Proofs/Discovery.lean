import MacroConstants.Discovery
import MacroConstants.Host.Scripted
import MacroConstants.Proofs.Dump
import MacroConstants.Proofs.RunState

/-!
# What becomes of the lines of a dump

A discovery turns every line of the preprocessor's output into exactly one of six things
(`Dump.Fate`): nothing for a blank line, a warning for a line that is no definition, nothing for
a macro with parameters or a name that is not kept, a constant for the first definition of a
name, and a warning for every later one.

* `Discovery.ofConfig_eq_ok_iff`, `Discovery.ofConfig_eq_error_iff` : of which configurations a
  discovery can be made.
* `Catalog.addDefinitions_eq` : adding definitions splits them into the first of each name, which
  become constants, and the others.
* `Discovery.Accounts` : a catalog and a list of findings account for the lines of a dump.
* `Discovery.run_accounts` : **every line is accounted for exactly once**.
-/

namespace MacroConstants

/-! ### Usable configurations -/

namespace Discovery

/-- A discovery can be made of a configuration that has one, and is the only one. -/
theorem ofConfig_eq_ok_iff {c : Configuration} {d : Discovery} :
    ofConfig c = .ok d ↔ d.config = c := by
  unfold ofConfig
  constructor
  · intro h
    split at h
    · rw [← Except.ok.inj h]
    · cases h
  · rintro rfl
    obtain ⟨c, keep, usable⟩ := d
    split
    · rename_i keep' usable'
      obtain rfl : keep' = keep := Except.ok.inj (usable'.symm.trans usable)
      rfl
    · rename_i fault herror
      rw [usable] at herror
      cases herror

theorem ofConfig_eq_error_iff {c : Configuration} {fault : Fault} :
    ofConfig c = .error fault ↔ c.check = .error fault := by
  unfold ofConfig
  split <;> rename_i h <;> simp [h]

end Discovery

/-! ### First and later definitions -/

namespace Definition

@[simp] theorem name_constant (d : Definition) : d.constant.name = d.name := by
  unfold constant
  split <;> rfl

@[simp] theorem raw_constant (d : Definition) : d.constant.raw = some d.text := by
  unfold constant
  split <;> rfl

/-- The definitions of names that are neither taken nor defined before. -/
def firsts : List Bytes → List Definition → List Definition
  | _, [] => []
  | taken, d :: ds =>
    if d.name ∈ taken then firsts taken ds else d :: firsts (taken ++ [d.name]) ds

/-- The definitions of names that are taken or defined before. -/
def repeats : List Bytes → List Definition → List Definition
  | _, [] => []
  | taken, d :: ds =>
    if d.name ∈ taken then d :: repeats taken ds else repeats (taken ++ [d.name]) ds

variable {taken : List Bytes} {ds : List Definition}

theorem firsts_sublist : (firsts taken ds).Sublist ds := by
  induction ds generalizing taken with
  | nil => exact List.Sublist.slnil
  | cons d ds ih =>
    unfold firsts
    split
    · exact ih.cons d
    · exact ih.cons_cons d

theorem repeats_sublist : (repeats taken ds).Sublist ds := by
  induction ds generalizing taken with
  | nil => exact List.Sublist.slnil
  | cons d ds ih =>
    unfold repeats
    split
    · exact ih.cons_cons d
    · exact ih.cons d

/-- Where the lines increase, the first definitions are those whose name is on no earlier line. -/
theorem mem_firsts_iff (h : ds.Pairwise fun a b => a.line.toNat < b.line.toNat) {d : Definition} :
    d ∈ firsts taken ds ↔
      d ∈ ds ∧ d.name ∉ taken ∧ ∀ e ∈ ds, e.line.toNat < d.line.toNat → e.name ≠ d.name := by
  induction ds generalizing taken with
  | nil => simp [firsts]
  | cons a ds ih =>
    obtain ⟨ha, hds⟩ := List.pairwise_cons.1 h
    -- nothing stands before the head
    have hself : ∀ e ∈ a :: ds, ¬ e.line.toNat < a.line.toNat := by
      intro e he
      rcases List.mem_cons.1 he with rfl | he
      · exact lt_irrefl _
      · exact (ha e he).le.not_gt
    unfold firsts
    split
    -- the head repeats a name that is taken
    · rename_i htaken
      rw [ih hds]
      constructor
      · rintro ⟨hd, hnot, hall⟩
        refine ⟨List.mem_cons_of_mem _ hd, hnot, fun e he hlt => ?_⟩
        rcases List.mem_cons.1 he with rfl | he
        · exact fun h => hnot (h ▸ htaken)
        · exact hall e he hlt
      · rintro ⟨hd, hnot, hall⟩
        rcases List.mem_cons.1 hd with rfl | hd
        · exact absurd htaken hnot
        · exact ⟨hd, hnot, fun e he => hall e (List.mem_cons_of_mem _ he)⟩
    -- the head is first, and takes its name
    · rename_i htaken
      rw [List.mem_cons, ih hds, List.mem_append, List.mem_singleton, not_or]
      constructor
      · rintro (rfl | ⟨hd, ⟨hnot, hne⟩, hall⟩)
        · exact ⟨List.mem_cons_self, htaken, fun e he hlt => absurd hlt (hself e he)⟩
        · refine ⟨List.mem_cons_of_mem _ hd, hnot, fun e he hlt => ?_⟩
          rcases List.mem_cons.1 he with rfl | he
          · exact Ne.symm hne
          · exact hall e he hlt
      · rintro ⟨hd, hnot, hall⟩
        rcases List.mem_cons.1 hd with rfl | hd
        · exact Or.inl rfl
        · refine Or.inr ⟨hd, ⟨hnot, ?_⟩, fun e he => hall e (List.mem_cons_of_mem _ he)⟩
          exact Ne.symm (hall a List.mem_cons_self (ha d hd))

/-- The later definitions are those that are not first. -/
theorem mem_repeats_iff (h : ds.Pairwise fun a b => a.line.toNat < b.line.toNat) {d : Definition} :
    d ∈ repeats taken ds ↔ d ∈ ds ∧ d ∉ firsts taken ds := by
  induction ds generalizing taken with
  | nil => simp [repeats]
  | cons a ds ih =>
    obtain ⟨ha, hds⟩ := List.pairwise_cons.1 h
    -- the head comes once, as no two definitions share a line
    have hself : a ∉ ds := fun hm => lt_irrefl _ (ha a hm)
    unfold firsts repeats
    split
    · have hnot : a ∉ firsts taken ds := fun hm => hself (firsts_sublist.mem hm)
      rw [List.mem_cons, List.mem_cons, ih hds]
      constructor
      · rintro (rfl | ⟨hd, hfirst⟩)
        · exact ⟨Or.inl rfl, hnot⟩
        · exact ⟨Or.inr hd, hfirst⟩
      · rintro ⟨rfl | hd, hfirst⟩
        · exact Or.inl rfl
        · exact Or.inr ⟨hd, hfirst⟩
    · rw [List.mem_cons, List.mem_cons, ih hds, not_or]
      constructor
      · rintro ⟨hd, hfirst⟩
        exact ⟨Or.inr hd, fun h => hself (h ▸ hd), hfirst⟩
      · rintro ⟨rfl | hd, hne, hfirst⟩
        · exact absurd rfl hne
        · exact ⟨hd, hfirst⟩

end Definition

/-! ### From definitions to constants -/

namespace Catalog

theorem add_of_mem {k : Catalog} {c : Constant} (h : c.name ∈ k.names) : k.add c = (k, false) := by
  unfold add
  rw [dif_pos h]

theorem add_of_notMem {k : Catalog} {c : Constant} (h : c.name ∉ k.names) :
    (k.add c).1.items = k.items ++ [c] ∧ (k.add c).2 = true := by
  unfold add
  rw [dif_neg h]
  exact ⟨rfl, rfl⟩

/-- Adding definitions makes constants of the first ones and hands back the others. -/
theorem addDefinitions_eq (ds : List Definition) (k : Catalog) :
    (addDefinitions ds k).1.items =
        k.items ++ (Definition.firsts k.names ds).map Definition.constant ∧
      (addDefinitions ds k).2 = Definition.repeats k.names ds := by
  induction ds generalizing k with
  | nil => simp [addDefinitions, Definition.firsts, Definition.repeats]
  | cons d ds ih =>
    obtain ⟨hitems, hrejected⟩ := ih (k.add d.constant).1
    by_cases htaken : d.name ∈ k.names
    · have hadd := add_of_mem (c := d.constant) (by simpa using htaken)
      rw [hadd] at hitems hrejected
      simp [addDefinitions, Definition.firsts, Definition.repeats, htaken, hadd, hitems, hrejected]
    · obtain ⟨hadd, hadded⟩ := add_of_notMem (k := k) (c := d.constant) (by simpa using htaken)
      -- the names of the catalog are those that `firsts` remembers
      have hnames : (k.add d.constant).1.names = k.names ++ [d.name] := by
        simp [names, hadd]
      simp only [addDefinitions, Definition.firsts, Definition.repeats, htaken, if_false, hadded,
        if_true, hitems, hrejected, hnames, hadd, List.map_cons]
      exact ⟨by simp, trivial⟩

end Catalog

/-! ### The fate of a line -/

namespace Dump

open Bytes

variable {keep : Selector} {text : Bytes}

/-- Line `i` is the first that defines the name and is accepted. -/
def IsFirst (keep : Selector) (text : Bytes) (i : ℕ) (name value : Bytes) : Prop :=
  Accepts keep text i name value ∧ ∀ j < i, ∀ other, ¬ Accepts keep text j name other

/-- Line `i` defines a name that an accepted earlier line defines. -/
def IsRepeat (keep : Selector) (text : Bytes) (i : ℕ) (name value : Bytes) : Prop :=
  Accepts keep text i name value ∧ ∃ j < i, ∃ other, Accepts keep text j name other

/-- What can become of a line of a dump. -/
inductive Fate where
  | blank
  /-- It is neither blank nor a definition. -/
  | unreadable
  /-- It defines a macro with parameters. -/
  | parametric
  /-- It defines a name that is not kept. -/
  | dropped
  /-- It is the first definition of a name that is kept. -/
  | first
  /-- It is a later definition of a name that is kept. -/
  | repeated
  deriving DecidableEq

/-- What it means for line `i` to have a fate. -/
def HasFate (keep : Selector) (text : Bytes) (i : ℕ) : Fate → Prop
  | .blank => ∃ line, text.lines[i]? = some line ∧ (withoutReturns line).all Bytes.isSpace = true
  | .unreadable => ∃ shown, Rejects text i shown
  | .parametric => ∃ line name value, text.lines[i]? = some line ∧
      Gives (withoutReturns line) name value ∧ name.any isParenthesis = true
  | .dropped => ∃ line name value, text.lines[i]? = some line ∧
      Gives (withoutReturns line) name value ∧ name.any isParenthesis = false ∧ keep name = false
  | .first => ∃ name value, IsFirst keep text i name value
  | .repeated => ∃ name value, IsRepeat keep text i name value

/-- The fate of a definition is told by its name: parentheses, then the filter, then whether the
name is new. -/
theorem hasFate_iff_of_gives {i : ℕ} {line name value : Bytes} {fate : Fate}
    (hline : text.lines[i]? = some line) (hgives : Gives (withoutReturns line) name value) :
    HasFate keep text i fate ↔
      (fate = .parametric ∧ name.any isParenthesis = true) ∨
      (name.any isParenthesis = false ∧
        ((fate = .dropped ∧ keep name = false) ∨
          (keep name = true ∧
            ((fate = .repeated ∧ ∃ j < i, ∃ other, Accepts keep text j name other) ∨
              (fate = .first ∧ ¬ ∃ j < i, ∃ other, Accepts keep text j name other))))) := by
  have hsame : ∀ n v, Gives (withoutReturns line) n v ↔ n = name ∧ v = value := fun n v =>
    ⟨gives_unique hgives, by rintro ⟨rfl, rfl⟩; exact hgives⟩
  have hacc : ∀ n v, Accepts keep text i n v ↔
      (n = name ∧ v = value) ∧ n.any isParenthesis = false ∧ keep n = true := fun n v => by
    simp only [Accepts, hline, Option.some.injEq, exists_eq_left', hsame]
  cases fate with
  | blank =>
    have hspace := not_all_isSpace_of_gives hgives
    simp [HasFate, hline, hspace, -List.all_eq_true]
  | unreadable => simp [HasFate, Rejects, hline, hsame]
  | parametric => simp [HasFate, hline, hsame]
  | dropped => simp [HasFate, hline, hsame]
  | first =>
    simp only [HasFate, IsFirst, hacc]
    constructor
    · rintro ⟨_, _, ⟨⟨rfl, rfl⟩, hany, hkeep⟩, hnone⟩
      refine Or.inr ⟨hany, Or.inr ⟨hkeep, Or.inr ⟨trivial, ?_⟩⟩⟩
      rintro ⟨j, hj, other, h⟩
      exact hnone j hj other h
    · rintro (⟨h, -⟩ | ⟨hany, ⟨h, -⟩ | ⟨hkeep, ⟨h, -⟩ | ⟨-, hnone⟩⟩⟩)
      · cases h
      · cases h
      · cases h
      · exact ⟨name, value, ⟨⟨rfl, rfl⟩, hany, hkeep⟩, fun j hj other h => hnone ⟨j, hj, other, h⟩⟩
  | repeated =>
    simp only [HasFate, IsRepeat, hacc]
    constructor
    · rintro ⟨_, _, ⟨⟨rfl, rfl⟩, hany, hkeep⟩, hex⟩
      exact Or.inr ⟨hany, Or.inr ⟨hkeep, Or.inl ⟨trivial, hex⟩⟩⟩
    · rintro (⟨h, -⟩ | ⟨hany, ⟨h, -⟩ | ⟨hkeep, ⟨-, hex⟩ | ⟨h, -⟩⟩⟩)
      · cases h
      · cases h
      · exact ⟨name, value, ⟨⟨rfl, rfl⟩, hany, hkeep⟩, hex⟩
      · cases h

/-- A line that gives nothing is blank or unreadable. -/
theorem hasFate_iff_of_not_gives {i : ℕ} {line : Bytes} {fate : Fate}
    (hline : text.lines[i]? = some line)
    (hnone : ∀ name value, ¬ Gives (withoutReturns line) name value) :
    HasFate keep text i fate ↔
      (fate = .blank ∧ (withoutReturns line).all Bytes.isSpace = true) ∨
        (fate = .unreadable ∧ (withoutReturns line).all Bytes.isSpace = false) := by
  have hacc : ∀ n v, ¬ Accepts keep text i n v := by
    rintro n v ⟨line', hline', hgives, -⟩
    obtain rfl : line = line' := Option.some.inj (hline.symm.trans hline')
    exact hnone n v hgives
  cases fate <;> simp [HasFate, Rejects, IsFirst, IsRepeat, hacc, hline, hnone]

/-- A line has exactly one fate. -/
theorem existsUnique_fate (keep : Selector) {text : Bytes} {i : ℕ} (hi : i < text.lines.length) :
    ∃! fate, HasFate keep text i fate := by
  obtain ⟨line, hline⟩ : ∃ line, text.lines[i]? = some line := ⟨_, List.getElem?_eq_getElem hi⟩
  by_cases hgives : ∃ name value, Gives (withoutReturns line) name value
  · obtain ⟨name, value, hgives⟩ := hgives
    simp only [hasFate_iff_of_gives hline hgives]
    cases name.any isParenthesis
    · cases keep name
      · exact ⟨.dropped, by simp, by simp⟩
      · by_cases hex : ∃ j < i, ∃ other, Accepts keep text j name other
        · exact ⟨.repeated, by simp [hex], by simp [hex]⟩
        · exact ⟨.first, by simp [hex], by simp [hex]⟩
    · exact ⟨.parametric, by simp, by simp⟩
  · push Not at hgives
    simp only [hasFate_iff_of_not_gives hline hgives]
    cases (withoutReturns line).all Bytes.isSpace
    · exact ⟨.unreadable, by simp, by simp⟩
    · exact ⟨.blank, by simp, by simp⟩

/-- The definitions that become constants are the first ones, in the order of the lines. -/
theorem lists_firsts (keep : Selector) (hlen : text.lines.length < 2 ^ 32) :
    Lists (fun d => d.line.toNat)
      (fun d => ∃ i, d.line.toNat = i + 1 ∧ IsFirst keep text i d.name d.text)
      (Definition.firsts [] (definitions keep text)) := by
  have hds := lists_definitions keep hlen
  refine ⟨hds.increasing.sublist Definition.firsts_sublist, fun d => ?_⟩
  rw [Definition.mem_firsts_iff hds.increasing]
  simp only [hds.mem_iff, List.not_mem_nil, not_false_eq_true, true_and]
  constructor
  · rintro ⟨⟨i, hnum, hacc⟩, hall⟩
    refine ⟨i, hnum, hacc, fun j hj other hother => ?_⟩
    -- the earlier line is a definition of the same name
    obtain ⟨line, hline, -⟩ := id hother
    have hj' := toNat_number hlen hline
    exact hall ⟨d.name, other, (j + 1).toUInt32⟩ ⟨j, hj', hother⟩ (by dsimp only; omega) rfl
  · rintro ⟨i, hnum, hacc, hnone⟩
    refine ⟨⟨i, hnum, hacc⟩, fun e ⟨j, hj, he⟩ hlt hname => ?_⟩
    exact hnone j (by omega) e.text (hname ▸ he)

/-- The definitions that are handed back are the later ones, in the order of the lines. -/
theorem lists_repeats (keep : Selector) (hlen : text.lines.length < 2 ^ 32) :
    Lists (fun d => d.line.toNat)
      (fun d => ∃ i, d.line.toNat = i + 1 ∧ IsRepeat keep text i d.name d.text)
      (Definition.repeats [] (definitions keep text)) := by
  have hds := lists_definitions keep hlen
  refine ⟨hds.increasing.sublist Definition.repeats_sublist, fun d => ?_⟩
  rw [Definition.mem_repeats_iff hds.increasing, (lists_firsts keep hlen).mem_iff, hds.mem_iff]
  constructor
  · rintro ⟨⟨i, hnum, hacc⟩, hnot⟩
    refine ⟨i, hnum, hacc, ?_⟩
    by_contra hex
    exact hnot ⟨i, hnum, hacc, fun j hj other h => hex ⟨j, hj, other, h⟩⟩
  · rintro ⟨i, hnum, hacc, j, hj, other, hother⟩
    refine ⟨⟨i, hnum, hacc⟩, ?_⟩
    rintro ⟨i', hnum', -, hnone⟩
    obtain rfl : i = i' := by omega
    exact hnone j hj other hother

/-- A newline would have ended the line. -/
theorem newline_notMem_of_accepts {i : ℕ} {name value : Bytes}
    (h : Accepts keep text i name value) : ascii '\n' ∉ name ++ value := by
  obtain ⟨line, hline, ⟨before, between, after, heq, -⟩, -⟩ := h
  obtain ⟨tail, hread, -⟩ := exists_trimEnd (· == ascii '\r') line
  have hnone := notMem_of_mem_lines (List.mem_of_getElem? hline)
  rw [hread, ← withoutReturns, heq] at hnone
  simp only [List.mem_append, not_or] at hnone ⊢
  exact ⟨hnone.1.1.1.1.2, hnone.1.1.2⟩

/-- The name of an accepted definition. -/
theorem clean_of_accepts {i : ℕ} {name value : Bytes} (h : Accepts keep text i name value) :
    name ≠ [] ∧ keep name = true ∧
      ∀ b ∈ name, b ∉ [ascii ' ', ascii '\t', ascii '\n', ascii '(', ascii ')'] := by
  have hnewline := newline_notMem_of_accepts h
  obtain ⟨line, hline, ⟨-, -, -, -, -, hne, -, -, hsolid, -⟩, hany, hkeep⟩ := h
  refine ⟨hne, hkeep, fun b hb hmem => ?_⟩
  have hblank : isBlank b = false := hsolid b hb
  have hparen : isParenthesis b = false := by simpa using List.any_eq_false.1 hany b hb
  simp only [List.mem_cons, List.not_mem_nil, or_false] at hmem
  rcases hmem with rfl | rfl | rfl | rfl | rfl
  · cases hblank
  · cases hblank
  · exact hnewline (List.mem_append_left _ hb)
  · cases hparen
  · cases hparen

end Dump

/-! ### A run -/

namespace Discovery

open Dump

variable {τ : Type}

/-- The catalog and the findings account for every line of a dump. -/
structure Accounts (keep : Selector) (text : Bytes) (k : Catalog) (findings : List Finding) :
    Prop where
  /-- Every line has one fate. -/
  fate : ∀ i < text.lines.length, ∃! fate, HasFate keep text i fate
  /-- The constants are those of the first definitions, in the order of the lines. -/
  constants : ∃ firsts : List Definition,
    Lists (fun d => d.line.toNat)
      (fun d => ∃ i, d.line.toNat = i + 1 ∧ IsFirst keep text i d.name d.text) firsts ∧
    (k.items.map fun c => (c.name, c.raw)) = firsts.map fun d => (d.name, some d.text)
  /-- The warnings about unreadable lines come first, then those about repeated definitions, each
  in the order of the lines. -/
  warnings : ∃ unreadable repeated : List Finding, findings = unreadable ++ repeated ∧
    Lists (fun f => f.line.toNat)
      (fun f => ∃ i shown, Rejects text i shown ∧
        WarnsAt i (bytes "unable to parse line: " ++ shown) f) unreadable ∧
    Lists (fun f => f.line.toNat)
      (fun f => ∃ i name value, IsRepeat keep text i name value ∧
        WarnsAt i (bytes "duplicate definition of " ++ name ++ bytes " ignored") f) repeated
  distinct : k.names.Nodup
  clean : ∀ name ∈ k.names, name ≠ [] ∧ keep name = true ∧
    ∀ b ∈ name, b ∉ [ascii ' ', ascii '\t', ascii '\n', ascii '(', ascii ')']
  /-- A constant is settled exactly if its text is a literal, and else nothing is known of it. -/
  settled : ∀ c ∈ k.items, ∃ raw, c.raw = some raw ∧
    c.progress = match Literal.read? raw with
      | some value => .settled value.type (some value)
      | none => .fresh

theorem accounts_ofDump (keep : Selector) {text : Bytes} (hlen : text.lines.length < 2 ^ 32) :
    Accounts keep text (ofDump keep text).1 (ofDump keep text).2 := by
  obtain ⟨hitems, hrejected⟩ := Catalog.addDefinitions_eq (definitions keep text) {}
  have hfirsts := lists_firsts keep hlen
  have hrepeats := lists_repeats keep hlen
  have hcatalog : (ofDump keep text).1.items =
      (Definition.firsts [] (definitions keep text)).map Definition.constant := hitems
  refine ⟨fun i hi => existsUnique_fate keep hi, ⟨_, hfirsts, ?_⟩, ⟨_, _, rfl, ?_, ?_⟩,
    (ofDump keep text).1.distinct, ?_, ?_⟩
  · rw [hcatalog, List.map_map]
    exact List.map_congr_left fun d _ => by simp
  · exact lists_warnings hlen
  · rw [hrejected]
    refine ⟨List.pairwise_map.2 hrepeats.increasing, fun f => ?_⟩
    rw [List.mem_map]
    constructor
    · rintro ⟨d, hd, rfl⟩
      obtain ⟨i, hnum, hrep⟩ := (hrepeats.mem_iff d).1 hd
      exact ⟨i, d.name, d.text, hrep, rfl, rfl, hnum, rfl⟩
    · rintro ⟨i, name, value, hrep, hlevel, hfile, hnum, hmessage⟩
      refine ⟨⟨name, value, f.line⟩, (hrepeats.mem_iff _).2 ⟨i, hnum, hrep⟩, ?_⟩
      obtain ⟨level, file, n, message⟩ := f
      simp only at hlevel hfile hmessage
      subst hlevel hfile hmessage
      rfl
  · intro name hname
    obtain ⟨c, hc, rfl⟩ := List.mem_map.1 hname
    rw [hcatalog] at hc
    obtain ⟨d, hd, rfl⟩ := List.mem_map.1 hc
    obtain ⟨i, -, hacc, -⟩ := (hfirsts.mem_iff d).1 hd
    simpa using clean_of_accepts hacc
  · intro c hc
    rw [hcatalog] at hc
    obtain ⟨d, -, rfl⟩ := List.mem_map.1 hc
    refine ⟨d.text, d.raw_constant, ?_⟩
    unfold Definition.constant
    cases Literal.read? d.text <;> rfl

theorem diagnostics_dump (h : Host τ) (config : Configuration) (s : RunState τ) :
    (dump h config s).2.diagnostics = s.diagnostics := by
  unfold dump withSource invokeOrFail
  split
  · rename_i reason s₁ hcreate
    rw [← RunState.diagnostics_createFile h s, hcreate]
  · rename_i path s₁ hcreate
    rw [← RunState.diagnostics_createFile h s, hcreate]
    split
    · rename_i reason s₂ hwrite
      rw [RunState.diagnostics_remove, ← RunState.diagnostics_write h s₁, hwrite]
    · rename_i s₂ hwrite
      rw [← RunState.diagnostics_write h s₁, hwrite]
      dsimp only
      split <;> rfl

/-- **Every line is accounted for exactly once**, whatever the preprocessor printed. -/
theorem run_accounts (d : Discovery) (h : Host τ) {s s₁ : RunState τ} {text : Bytes}
    (hdump : dump h d.config s = (.ok text, s₁)) (hlen : text.lines.length < 2 ^ 32) :
    ∃ k findings s₂, d.run h s = (.ok k, s₂) ∧
      s₂.diagnostics.recorded = s.diagnostics.recorded ++ findings ∧
      Accounts d.keep text k findings := by
  refine ⟨(ofDump d.keep text).1, (ofDump d.keep text).2, s₁.reportAll (ofDump d.keep text).2,
    ?_, ?_, accounts_ofDump d.keep hlen⟩
  · unfold run
    rw [hdump]
  · rw [RunState.recorded_reportAll, ← diagnostics_dump h d.config s, hdump]

/-- A dump with a line of every fate. -/
def sample : Bytes :=
  bytes "#define A 1\r\n\n#define f(x) x\n#define _B 2\nint x;\n#define A 3\n#define C B"

/-- A discovery without headers. -/
def sampleDiscovery : Discovery := ⟨{ compiler := [bytes "cc"] }, Selector.default, rfl⟩

/-- A state in which the preprocessor is about to print the sample. -/
def sampleState : RunState Script := { host := { results := [{ result := { out := sample } }] } }

theorem run_accounts_sample :
    (dump (Host.scripted (bytes "/tmp") 1 none) sampleDiscovery.config sampleState).1 = .ok sample ∧
      sample.lines.length < 2 ^ 32 ∧
      ∃ k findings s₂,
        sampleDiscovery.run (Host.scripted (bytes "/tmp") 1 none) sampleState = (.ok k, s₂) ∧
        s₂.diagnostics.recorded = findings ∧ Accounts Selector.default sample k findings := by
  have hdump : (dump (Host.scripted (bytes "/tmp") 1 none) sampleDiscovery.config sampleState).1 =
      .ok sample := rfl
  have hlen : sample.lines.length < 2 ^ 32 := by decide
  exact ⟨hdump, hlen, run_accounts sampleDiscovery _ (Prod.ext hdump rfl) hlen⟩

example : (ofDump Selector.default sample).1.names = [bytes "A", bytes "C"] := by decide

end Discovery

end MacroConstants
