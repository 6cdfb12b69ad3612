import MacroConstants.Proofs.History
import MacroConstants.Proofs.Json.Number
import MacroConstants.Proofs.Probe
import MacroConstants.Proofs.Selection

/-!
# Reading printed lines

A discovered catalog is printed as text with a line for each constant and tabs between the columns,
and nothing is escaped.  Names and texts come from the lines of a dump, so neither has a newline and
no name has a tab; but a string may have any bytes, and a newline in it ends the line too early and
begins another one, which may look like the line of a constant.

* `Report.read` : the lines of a text, each cut at its first two tabs.
* `Value.Breaks`, `Constant.Breaks` : the values that are shown with a newline.
* `Constant.Plain` : what discovered constants are made from.
* `Report.read_rows_iff` : when the columns can be read back.
* `Discovery.read_report_iff` : **a printed catalog can be read back exactly if no value that is
  known has a newline**, and exactly then it has one line for each constant.
-/

namespace MacroConstants

/-! ### Rows -/

namespace Report

/-- The line of a row, without its end. -/
def Row.line (r : Row) : Bytes :=
  r.name ++ ascii '\t' :: (r.typeText ++ ascii '\t' :: r.text)

/-- The columns of a row. -/
def Row.cells (r : Row) : List Bytes := [r.name, r.typeText, r.text]

/-- A line cut at its first tabs, at most at `n` of them. -/
def cutAtTabs : ℕ → Bytes → List Bytes
  | 0, line => [line]
  | n + 1, line =>
    match line.dropWhile (· != ascii '\t') with
    | [] => [line]
    | _ :: rest => line.takeWhile (· != ascii '\t') :: cutAtTabs n rest

/-- The lines of a text, each cut at its first two tabs; what follows the last newline is no
line. -/
def read (text : Bytes) : List (List Bytes) := text.lines.dropLast.map (cutAtTabs 2)

variable {r : Row} {rows : List Row} {cell rest : Bytes}

theorem Row.render_eq (r : Row) : r.render = r.line ++ [ascii '\n'] := by
  have htab : bytes "\t" = [ascii '\t'] := by decide
  have hnewline : bytes "\n" = [ascii '\n'] := by decide
  simp [render, line, htab, hnewline]

theorem cutAtTabs_append (h : ascii '\t' ∉ cell) (n : ℕ) :
    cutAtTabs (n + 1) (cell ++ ascii '\t' :: rest) = cell :: cutAtTabs n rest := by
  have hcell : ∀ b ∈ cell, (b != ascii '\t') = true := fun b hb =>
    bne_iff_ne.2 fun hne => h (hne ▸ hb)
  have hrest : ∀ b ∈ (ascii '\t' :: rest).head?, (b != ascii '\t') = false := by simp
  rw [cutAtTabs, Bytes.dropWhile_append hcell hrest, Bytes.takeWhile_append hcell hrest]

theorem notMem_typeText {b : UInt8} (hb : b = ascii '\t' ∨ b = ascii '\n') : b ∉ r.typeText := by
  unfold Row.typeText
  rcases hb with rfl | rfl
  all_goals
    cases r.type with
    | none => decide
    | some t => cases t <;> decide

theorem cutAtTabs_line (h : ascii '\t' ∉ r.name) : cutAtTabs 2 r.line = r.cells := by
  rw [Row.line, cutAtTabs_append h, cutAtTabs_append (notMem_typeText (.inl rfl))]
  rfl

theorem newline_mem_line_iff (h : ascii '\n' ∉ r.name) :
    ascii '\n' ∈ r.line ↔ ascii '\n' ∈ r.text := by
  have htab : ascii '\n' ≠ ascii '\t' := by decide
  simp [Row.line, h, htab, notMem_typeText (r := r) (.inr rfl)]

/-- Every row is printed with one newline at least, … -/
theorem length_le_count (rows : List Row) :
    rows.length ≤ (rows.flatMap Row.render).count (ascii '\n') := by
  induction rows with
  | nil => exact Nat.zero_le _
  | cons r rows ih =>
    rw [List.flatMap_cons, List.count_append, Row.render_eq, List.count_append,
      List.count_singleton_self, List.length_cons]
    omega

/-- … and with just one exactly if there is none in its line. -/
theorem count_eq_length_iff (rows : List Row) :
    (rows.flatMap Row.render).count (ascii '\n') = rows.length ↔
      ∀ r ∈ rows, ascii '\n' ∉ r.line := by
  induction rows with
  | nil => simp
  | cons r rows ih =>
    have hle := length_le_count rows
    rw [List.flatMap_cons, List.count_append, Row.render_eq, List.count_append,
      List.count_singleton_self, List.length_cons, List.forall_mem_cons, ← ih,
      ← List.count_eq_zero]
    omega

/-- The columns are read back exactly if there is no newline in a line. -/
theorem read_rows_iff (h : ∀ r ∈ rows, ascii '\t' ∉ r.name) :
    read (rows.flatMap Row.render) = rows.map Row.cells ↔ ∀ r ∈ rows, ascii '\n' ∉ r.line := by
  constructor
  · intro hread
    have hlength := congrArg List.length hread
    rw [read, List.length_map, List.length_dropLast, Bytes.length_lines, List.length_map,
      Nat.add_sub_cancel] at hlength
    exact (count_eq_length_iff rows).1 hlength
  · intro hnone
    have hlines : Bytes.lines (rows.flatMap Row.render) = rows.map Row.line ++ [[]] := by
      rw [← Bytes.lines_flatMap (List.forall_mem_map.2 hnone), List.flatMap_map,
        funext Row.render_eq]
    rw [read, hlines, List.dropLast_concat, List.map_map]
    exact List.map_congr_left fun r hr => cutAtTabs_line (h r hr)

end Report

/-! ### Values -/

namespace Value

/-- The value is shown with a newline. -/
def Breaks : Value → Prop
  | string text => ascii '\n' ∈ text
  | decimal t text => (t.isReal = true ∨ t = .string) ∧ ascii '\n' ∈ text
  | _ => False

theorem newline_notMem_signed (i : ℤ) : ascii '\n' ∉ Numeral.signed i :=
  Bytes.notMem_of_all (Json.number_signed i).all_isNumeric (by decide)

theorem newline_notMem_addressText (a : UInt64) : ascii '\n' ∉ addressText a := by
  have hdigits : (Numeral.hexadecimal a.toNat).all (· != ascii '\n') = true :=
    Numeral.all_toDigits (by decide) (by decide) a.toNat
  rw [addressText, List.mem_append, not_or]
  exact ⟨by decide, Bytes.notMem_of_all hdigits (by decide)⟩

theorem newline_notMem_general {precision : ℕ} (hp : 0 < precision) (x : Binary64) :
    ascii '\n' ∉ Decimal.general precision x := by
  cases hx : x.isFinite with
  | true => exact Bytes.notMem_of_all (Json.number_general hp hx).all_isNumeric (by decide)
  | false =>
    simp only [Decimal.general, hx, Bool.not_false, ↓reduceIte]
    split <;> split <;> decide

theorem newline_mem_real_iff {precision : ℕ} (hp : 0 < precision) (x : Binary64) (text : Bytes) :
    ascii '\n' ∈ (if text.isEmpty then Decimal.general precision x else text) ↔
      ascii '\n' ∈ text := by
  split
  · rename_i hempty
    rw [List.isEmpty_iff.1 hempty]
    exact iff_of_false (newline_notMem_general hp x) List.not_mem_nil
  · exact Iff.rfl

/-- Integers, addresses and computed numbers have no newline. -/
theorem newline_mem_render_iff (v : Value) : ascii '\n' ∈ v.render ↔ v.Breaks := by
  cases v with
  | int i | long i => exact iff_of_false (newline_notMem_signed _) id
  | float x | double x => exact iff_of_false (newline_notMem_general (by decide) x) id
  | string text => exact Iff.rfl
  | pointer a => exact iff_of_false (newline_notMem_addressText a) id
  | other => exact iff_of_false List.not_mem_nil id
  | decimal t text =>
    -- decimal text is shown at the types that may have it, and at no other
    have hother (h : (t.isReal || t == .string) = false) : ¬(decimal t text).Breaks := by
      simp_all [Breaks]
    cases t with
    | float =>
      exact (newline_mem_real_iff (Nat.succ_pos 8) .zero text).trans
        (and_iff_right (.inl rfl)).symm
    | double =>
      exact (newline_mem_real_iff (Nat.succ_pos 16) .zero text).trans
        (and_iff_right (.inl rfl)).symm
    | string => exact (and_iff_right (.inr rfl)).symm
    | int | long => exact iff_of_false (newline_notMem_signed 0) (hother rfl)
    | pointer => exact iff_of_false (newline_notMem_addressText 0) (hother rfl)
    | other => exact iff_of_false List.not_mem_nil (hother rfl)

instance (v : Value) : Decidable v.Breaks := decidable_of_iff _ v.newline_mem_render_iff

end Value

/-! ### Constants -/

namespace Constant

/-- The value that is known is shown with a newline. -/
def Breaks (c : Constant) : Prop := ∃ v ∈ c.progress.value?.join, v.Breaks

instance (c : Constant) : Decidable c.Breaks :=
  inferInstanceAs (Decidable (∃ v ∈ c.progress.value?.join, v.Breaks))

/-- What a constant is made from: a name and perhaps a text. -/
def source (c : Constant) : Bytes × Option Bytes := (c.name, c.raw)

/-- There is no tab in the name and no newline in the name and the text. -/
structure Plain (c : Constant) : Prop where
  tab : ascii '\t' ∉ c.name
  name : ascii '\n' ∉ c.name
  raw : ∀ raw, c.raw = some raw → ascii '\n' ∉ raw

variable {c d : Constant}

theorem Plain.of_source_eq (hc : c.Plain) (h : d.source = c.source) : d.Plain := by
  obtain ⟨hname, hraw⟩ : d.name = c.name ∧ d.raw = c.raw := Prod.mk.inj h
  exact ⟨hname ▸ hc.tab, hname ▸ hc.name, hraw ▸ hc.raw⟩

theorem name_knownRow (c : Constant) : c.knownRow.name = c.name := by
  unfold knownRow
  split <;> rfl

theorem newline_mem_text_iff (hraw : ∀ raw, c.raw = some raw → ascii '\n' ∉ raw) :
    ascii '\n' ∈ c.knownRow.text ↔ c.Breaks := by
  unfold knownRow Breaks
  cases hp : c.progress with
  | fresh =>
    cases hr : c.raw with
    | none => simp [Progress.type?, Progress.value?]
    | some raw => simpa [Progress.type?, Progress.value?] using hraw raw hr
  | typed t => simp [Progress.type?, Progress.value?]
  | settled t w =>
    cases w with
    | none => simp [Progress.type?, Progress.value?]
    | some v => simpa [Progress.type?, Progress.value?] using v.newline_mem_render_iff

theorem newline_mem_knownRow_iff (hc : c.Plain) : ascii '\n' ∈ c.knownRow.line ↔ c.Breaks := by
  rw [Report.newline_mem_line_iff (c.name_knownRow ▸ hc.name), newline_mem_text_iff hc.raw]

end Constant

/-! ### Discovered catalogs -/

namespace Catalog

variable {σ : Type} {r : Resolver σ}

/-- Whatever is looked at, constants keep what they are made from. -/
theorem map_source_history (accesses : List Access) (k : Catalog) (s : σ) :
    (k.history r accesses s).1.items.map Constant.source = k.items.map Constant.source :=
  map_history (fun c s => by simp [Constant.source]) (fun c s => by simp [Constant.source])
    accesses k s

end Catalog

namespace Discovery

variable {τ σ : Type} {d : Discovery} {h : Host τ} {s s₁ : RunState τ} {k : Catalog}

theorem plain_of_run (hrun : d.run h s = (.ok k, s₁)) : ∀ c ∈ k.items, c.Plain := by
  obtain ⟨text, rfl⟩ := exists_ofDump_of_run hrun
  rw [items_ofDump, List.forall_mem_map]
  intro definition hdefinition
  obtain ⟨i, hacc⟩ := Dump.exists_accepts (Definition.firsts_sublist.mem hdefinition)
  have hnewline := Dump.newline_notMem_of_accepts hacc
  rw [List.mem_append, not_or] at hnewline
  refine ⟨fun htab => ?_, ?_, fun raw hraw => ?_⟩
  · rw [Definition.name_constant] at htab
    exact (Dump.clean_of_accepts hacc).2.2 _ htab (by simp)
  · rw [Definition.name_constant]
    exact hnewline.1
  · rw [Definition.raw_constant] at hraw
    exact Option.some.inj hraw ▸ hnewline.2

/-- **When a printed catalog can be read back.**  Whoever is asked and whatever was looked at
before, the names of a discovered catalog stay as they are, and its text is a row for each constant
of what is known of it afterwards.  Cutting the text into lines and columns gives these rows back
exactly if no value that is known has a newline, and exactly then there is one newline for each
constant. -/
theorem read_report_iff (hrun : d.run h s = (.ok k, s₁)) (r : Resolver σ)
    (accesses : List Catalog.Access) (resolve : Bool) (t : σ) :
    let left := k.history r accesses t
    let printed := left.1.report r resolve .text left.2
    let shown := printed.2.1.items.map Constant.knownRow
    printed.2.1.names = k.names ∧
    printed.1 = shown.flatMap Report.Row.render ∧
    (Report.read printed.1 = shown.map Report.Row.cells ↔
      ∀ c ∈ printed.2.1.items, ¬c.Breaks) ∧
    (printed.1.count (ascii '\n') = k.size ↔ ∀ c ∈ printed.2.1.items, ¬c.Breaks) := by
  intro left printed shown
  have hsource : printed.2.1.items.map Constant.source = k.items.map Constant.source :=
    (Catalog.map_source_history [.print resolve .text] left.1 left.2).trans
      (Catalog.map_source_history accesses k t)
  have hnames : printed.2.1.names = k.names := by
    have h := congrArg (List.map Prod.fst) hsource
    rwa [List.map_map, List.map_map] at h
  have hplain : ∀ c ∈ printed.2.1.items, c.Plain := by
    intro c hc
    obtain ⟨b, hb, hbc⟩ := List.mem_map.1 (hsource ▸ List.mem_map_of_mem hc)
    exact (plain_of_run hrun b hb).of_source_eq hbc.symm
  have hprinted : printed.1 = shown.flatMap Report.Row.render :=
    Catalog.report_eq_shown r resolve left.1 left.2 .text
  have htabs : ∀ row ∈ shown, ascii '\t' ∉ row.name :=
    List.forall_mem_map.2 fun c hc => c.name_knownRow ▸ (hplain c hc).tab
  have hbreaks : (∀ row ∈ shown, ascii '\n' ∉ row.line) ↔ ∀ c ∈ printed.2.1.items, ¬c.Breaks := by
    rw [List.forall_mem_map]
    exact forall₂_congr fun c hc => not_congr (Constant.newline_mem_knownRow_iff (hplain c hc))
  have hsize : shown.length = k.size := by
    have h := congrArg List.length hnames
    rwa [Catalog.names, Catalog.names, List.length_map, List.length_map, ← List.length_map] at h
  refine ⟨hnames, hprinted, ?_, ?_⟩
  · rw [hprinted, Report.read_rows_iff htabs, hbreaks]
  · rw [hprinted, ← hsize, Report.count_eq_length_iff, hbreaks]

/-- The sample can be read back as long as nothing is resolved. -/
theorem read_report_sample :
    let run := sampleDiscovery.run (Host.scripted (bytes "/tmp") 1 none) sampleState
    let k := (ofDump Selector.default sample).1
    let printed := k.report (Resolver.ignorant (σ := Unit)) false .text ()
    run.1 = .ok k ∧
      Report.read printed.1 =
        [[bytes "A", bytes "int", bytes "1"], [bytes "C", bytes "?", bytes "B"]] := by
  intro run k printed
  have hrun : run.1 = .ok k := rfl
  obtain ⟨-, -, hread, -⟩ :=
    read_report_iff (Prod.ext hrun rfl) (Resolver.ignorant (σ := Unit)) [] false ()
  exact ⟨hrun, (hread.2 (by decide)).trans (by decide)⟩

/-- A dump that lists a string with escapes. -/
def forgeryDump : Bytes := bytes "#define MSG \"a\\nN\\tint\\t7\"\n"

/-- The string itself. -/
def forgeryReading : Reading := { string := some (bytes "a\nN\tint\t7") }

/-- A state in which the preprocessor is about to print the dump, and modules to answer. -/
def forgeryState : RunState Script where
  host := { results := [
    { result := { out := forgeryDump } },
    { built := some (.shared { typeFunction := some (some (bytes "string")) }) },
    { built := some (.shared { valueFunction := some forgeryReading }) }] }

/-- The line of another constant is read out of the value of the only one. -/
theorem read_report_forgery :
    let p := Prober.rehearsed
    let run := sampleDiscovery.run p.host forgeryState
    let k := (ofDump Selector.default forgeryDump).1
    run.1 = .ok k ∧ k.names = [bytes "MSG"] ∧
      Report.read (k.report p.resolver true .text run.2).1 =
        [[bytes "MSG", bytes "string", bytes "a"], [bytes "N", bytes "int", bytes "7"]] :=
  ⟨rfl, by decide, by decide⟩

end Discovery

end MacroConstants
