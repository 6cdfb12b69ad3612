import MacroConstants.Proofs.Settings.Text

/-!
# Settings written out

Entries can be written as a settings file that says just what they say, as long as their strings
have no double quote and no newline in them.  The pattern of a filter is one that the engine
accepts.

* `Settings.render` : the file, with a line for each entry.
* `Settings.KeyValue.Clean` : what the strings must not contain.
* `Settings.accounts_render` : what the lines of the file state.
* `Settings.KeyValue.Holds`, `Settings.Key.Same` : a field has a value, a field is unchanged.
* `Configuration.load_render` : **reading the file sets the fields of its entries and no other**.
-/

namespace MacroConstants

namespace Settings

open Bytes

variable {c : UInt8} {s t text : Bytes} {k : Key}

/-! ### Writing values -/

namespace Value

/-- The strings in a value. -/
def strings : Value → List Bytes
  | scalar text => [text]
  | list items => items

/-- A value as it is written: strings in double quotes, lists in brackets. -/
def written : Value → Bytes
  | scalar text => quote text
  | list items => ascii '[' :: ((bytes ", ").intercalate (items.map quote) ++ [ascii ']'])

end Value

/-- No double quote and no newline. -/
def Plain (text : Bytes) : Prop := ascii '"' ∉ text ∧ ascii '\n' ∉ text

/-! ### What is written stands inside quotes -/

theorem sheltered_quote (h : ascii '"' ∉ text) (hc : c ≠ ascii '"') : Sheltered c (quote text) := by
  have htext := endsQuoted_of_notMem h
  refine ⟨guarded_cons.2 ⟨fun h => absurd h.symm hc, guarded_append.2 ⟨guarded_true h, ?_⟩⟩, ?_⟩
  · exact guarded_singleton.2 fun h => absurd h.symm hc
  · rw [quote, endsQuoted_cons, endsQuoted_append, htext, endsQuoted_singleton]
    rfl

/-- What brackets, commas and the quoted strings of a value have, and texts put together keep, a
written value has. -/
theorem written_induction {P : Bytes → Prop} {value : Value} (nil : P [])
    (append : ∀ s t, P s → P t → P (s ++ t)) (mark : ∀ s ∈ [bytes "[", bytes ", ", bytes "]"], P s)
    (quoted : ∀ text ∈ value.strings, P (quote text)) : P value.written := by
  cases value with
  | scalar text => exact quoted text List.mem_cons_self
  | list items =>
    have hitems : P ((bytes ", ").intercalate (items.map quote)) := by
      induction items with
      | nil => exact nil
      | cons item items ih =>
        obtain ⟨hitem, hrest⟩ := List.forall_mem_cons.1 quoted
        cases items with
        | nil =>
          rw [List.map_singleton, List.intercalate_singleton]
          exact hitem
        | cons next items =>
          rw [List.map_cons, List.map_cons, List.intercalate_cons_cons]
          exact append _ _ (append _ _ hitem (mark _ (by simp))) (ih hrest)
    exact append _ _ (mark (bytes "[") (by simp)) (append _ _ hitems (mark (bytes "]") (by simp)))

theorem sheltered_written {value : Value} (h : ∀ text ∈ value.strings, ascii '"' ∉ text) :
    Sheltered (ascii '#') value.written := by
  refine written_induction (sheltered_of_notMem (by simp) (by simp)) (fun _ _ => .append) ?_
    fun text ht => sheltered_quote (h text ht) (by decide)
  have hmark : ∀ s ∈ [bytes "[", bytes ", ", bytes "]"], ascii '#' ∉ s ∧ ascii '"' ∉ s := by decide
  exact fun s hs => sheltered_of_notMem (hmark s hs).1 (hmark s hs).2

theorem newline_notMem_written {value : Value} (h : ∀ text ∈ value.strings, ascii '\n' ∉ text) :
    ascii '\n' ∉ value.written := by
  refine written_induction (P := (ascii '\n' ∉ ·)) (by simp) (fun s t hs ht => ?_) (by decide)
    fun text ht => ?_
  · simpa using ⟨hs, ht⟩
  · have hq : ascii '\n' ≠ ascii '"' := by decide
    simpa [quote, hq] using h text ht

/-! ### Lists and values are read back -/

theorem layout_space : Layout (bytes " ") := List.all_eq_true.1 (by decide)

/-- A quoted text after white space is a piece of a list. -/
theorem sheltered_piece {lead item : Bytes} (hlead : Layout lead) (h : ascii '"' ∉ item) :
    Sheltered (ascii ',') (lead ++ quote item) :=
  (sheltered_of_notMem (hlead.notMem rfl) (hlead.notMem rfl)).append
    (sheltered_quote h (by decide))

theorem element_quote {lead item : Bytes} (hlead : Layout lead) :
    Element (lead ++ quote item) [item] := by
  have h : Element (lead ++ quote item ++ []) [item] := .quoted hlead layout_nil
  rwa [List.append_nil] at h

/-- Quoted texts between commas, perhaps after white space, are the items of a list.  The items
after the first have the space of their comma in front. -/
theorem items_intercalate {lead item : Bytes} {items : List Bytes} (hlead : Layout lead)
    (h : ∀ text ∈ item :: items, ascii '"' ∉ text) :
    Items (lead ++ (bytes ", ").intercalate ((item :: items).map quote)) (item :: items) := by
  have hitem := h item List.mem_cons_self
  induction items generalizing lead item with
  | nil =>
    rw [List.map_singleton, List.intercalate_singleton]
    exact .last (sheltered_piece hlead hitem) (element_quote hlead)
  | cons next items ih =>
    rw [List.forall_mem_cons] at h
    have hrest := ih layout_space h.2 (h.2 next List.mem_cons_self)
    have hmore := Items.more (sheltered_piece hlead hitem) (element_quote hlead) hrest
    have hsep : ∀ s, bytes ", " ++ s = ascii ',' :: (bytes " " ++ s) := fun _ => rfl
    rwa [List.map_cons, List.map_cons, List.intercalate_cons_cons, List.append_assoc, hsep,
      ← List.append_assoc]

theorem writes_written {value : Value} (h : ∀ text ∈ value.strings, ascii '"' ∉ text) :
    Writes value.written value := by
  cases value with
  | scalar text => exact .quoted
  | list items =>
    refine .list ?_
    cases items with
    | nil => exact .last (sheltered_of_notMem (by decide) (by decide)) (.blank layout_nil)
    | cons item items => exact items_intercalate layout_nil h

theorem Value.written_ne_nil (value : Value) : value.written ≠ [] := by
  cases value <;> exact List.cons_ne_nil _ _

/-! ### Fields -/

variable {config config' config'' : Configuration}

/-- Two configurations have the same field of a key. -/
def Key.Same (c c' : Configuration) : Key → Prop
  | headers => c'.headers = c.headers
  | cc => c'.compiler = c.compiler
  | ppflags => c'.dumpFlags = c.dumpFlags
  | cflags => c'.flags = c.flags
  | extraCflags => c'.extraFlags = c.extraFlags
  | lang => c'.language = c.language
  | filter => c'.filter = c.filter
  | verbose => c'.verbose = c.verbose

theorem Key.Same.refl (config : Configuration) (k : Key) : k.Same config config := by
  cases k <;> rfl

theorem Key.Same.trans (h : k.Same config config') (h' : k.Same config' config'') :
    k.Same config config'' := by
  cases k <;> exact Eq.trans h' h

/-! ### Lines -/

variable [PatternEngine] {e : KeyValue} {entries : List KeyValue}

/-- An entry as it is written: `key = value`. -/
def KeyValue.line (e : KeyValue) : Bytes := e.key.name ++ bytes " = " ++ e.value.written

/-- A settings file with a line for each entry. -/
def render (entries : List KeyValue) : Bytes :=
  (bytes "[discovery]" :: entries.map KeyValue.line).flatMap (· ++ [ascii '\n'])

/-- No string of the entry has a double quote or a newline. -/
def KeyValue.Clean (e : KeyValue) : Prop := ∀ text ∈ e.value.strings, Plain text

theorem assigns_line (h : e.Clean) : Assigns e.line e.key.name e.value := by
  have hsign : ∀ s, bytes " = " ++ s = bytes " " ++ ascii '=' :: (bytes " " ++ s) := fun _ => rfl
  refine ⟨bytes " ", bytes " ", e.value.written, ?_, layout_space, layout_space,
    writes_written fun text ht => (h text ht).1⟩
  rw [KeyValue.line, List.append_assoc, hsign, ← List.append_assoc]

/-- Nothing is cut off a line: every `#` of it is inside quotes and no white space is around it. -/
theorem content_line (h : e.Clean) : Content e.line e.line := by
  have hq : ∀ text ∈ e.value.strings, ascii '"' ∉ text := fun text ht => (h text ht).1
  obtain ⟨hbare, -, -, hne⟩ := e.key.name_clean
  have hkey : Sheltered (ascii '#') (e.key.name ++ bytes " = ") := by
    refine sheltered_of_notMem ?_ ?_ <;> cases e.key <;> decide
  have hline : Bare isLayout e.line := by
    refine ⟨?_, ?_⟩
    · rw [KeyValue.line, List.append_assoc, List.head?_append_of_ne_nil _ hne]
      exact hbare.1
    · rw [KeyValue.line, List.getLast?_append_of_ne_nil _ e.value.written_ne_nil]
      exact (writes_written hq).isBare.2
  refine ⟨[], [], [], by simp, layout_nil, layout_nil, hline, ?_, .inl rfl⟩
  rw [List.nil_append, List.append_nil]
  exact (hkey.append (sheltered_written hq)).1

theorem newline_notMem_line (h : e.Clean) : ascii '\n' ∉ e.line := by
  have hkey : ascii '\n' ∉ e.key.name ++ bytes " = " := by
    cases e.key <;> decide
  rw [KeyValue.line, List.mem_append, not_or]
  exact ⟨hkey, newline_notMem_written fun text ht => (h text ht).2⟩

/-- What the lines of a file state: the header, the entries in their order, and nothing after the
last newline. -/
theorem accounts_render (h : ∀ e ∈ entries, e.Clean) :
    Accounts (render entries) (.header [] :: (entries.map .setting ++ [.blank])) := by
  refine ⟨?_, headed_header⟩
  have hlines :
      (render entries).lines = bytes "[discovery]" :: (entries.map KeyValue.line ++ [[]]) := by
    refine lines_flatMap (List.forall_mem_cons.2 ⟨by decide, ?_⟩)
    rintro _ hline
    obtain ⟨e, he, rfl⟩ := List.mem_map.1 hline
    exact newline_notMem_line (h e he)
  rw [hlines]
  refine .cons ?_ (List.rel_append ?_ ?_)
  · exact .header (content_iff.2 (by decide)) ⟨[], [], rfl, layout_nil, layout_nil⟩
  · rw [List.forall₂_map_left_iff, List.forall₂_map_right_iff, List.forall₂_same]
    exact fun e he => .setting (content_line (h e he)) (assigns_line (h e he))
  · exact .cons (.blank (content_iff.2 (by decide))) .nil

/-! ### Effects -/

/-- The field of the entry's key has the entry's value. -/
def KeyValue.Holds : KeyValue → Configuration → Prop
  | headers items, c => c.headers = items
  | cc items, c => c.compiler = items
  | ppflags items, c => c.dumpFlags = some items
  | cflags items, c => c.flags = items
  | extraCflags items, c => c.extraFlags = items
  | lang language, c => c.language = language
  | filter _ keep _, c => c.filter = some keep
  | verbose flag, c => c.verbose = flag

theorem KeyValue.holds_apply (e : KeyValue) (config : Configuration) :
    e.Holds (e.apply config) := by
  cases e <;> rfl

theorem KeyValue.Holds.of_same (h : e.Holds config) (hs : e.key.Same config config') :
    e.Holds config' := by
  cases e <;> exact Eq.trans hs h

/-- An entry leaves the fields of the other keys alone. -/
theorem Key.same_apply (h : k ≠ e.key) : k.Same config (e.apply config) := by
  cases e <;> cases k <;> first | rfl | exact absurd rfl h

/-- The effect of entries in order. -/
def applyEntries (entries : List KeyValue) (config : Configuration) : Configuration :=
  entries.foldl (fun config e => e.apply config) config

theorem same_applyEntries (h : k ∉ entries.map KeyValue.key) :
    k.Same config (applyEntries entries config) := by
  induction entries generalizing config with
  | nil => exact .refl config k
  | cons e entries ih =>
    rw [List.map_cons, List.mem_cons, not_or] at h
    obtain ⟨hne, hrest⟩ := h
    exact (Key.same_apply hne).trans (ih hrest)

/-- Of entries with different keys each one has its effect: those after it leave its field alone. -/
theorem holds_applyEntries (h : (entries.map KeyValue.key).Nodup) :
    ∀ e ∈ entries, e.Holds (applyEntries entries config) := by
  induction entries generalizing config with
  | nil => exact fun e he => absurd he List.not_mem_nil
  | cons e entries ih =>
    obtain ⟨hnew, hrest⟩ := List.nodup_cons.1 h
    refine List.forall_mem_cons.2 ⟨?_, ih hrest⟩
    exact (e.holds_apply config).of_same (same_applyEntries hnew)

theorem applyAll_render :
    Statement.applyAll (.header [] :: (entries.map .setting ++ [.blank])) config =
      applyEntries entries config := by
  rw [Statement.applyAll, List.foldl_cons, List.foldl_append, List.foldl_map]
  rfl

end Settings

namespace Configuration

open Settings

/-- **Settings that are written out are read back.**  Whatever the strings are, apart from double
quotes and newlines, and whatever was configured before, the file of entries with different keys is
accepted, the fields of its entries are set to their values and no other field is changed. -/
theorem load_render [PatternEngine] (source : Bytes) (c : Configuration) {entries : List KeyValue}
    (hclean : ∀ e ∈ entries, e.Clean) (hkeys : (entries.map KeyValue.key).Nodup) :
    ∃ c', c.load source (render entries) = (c', none) ∧ (∀ e ∈ entries, e.Holds c') ∧
      ∀ k, k ∉ entries.map KeyValue.key → k.Same c c' := by
  refine ⟨applyEntries entries c, ?_, holds_applyEntries hkeys, fun k => same_applyEntries⟩
  rw [load_eq_none_iff]
  exact ⟨_, accounts_render hclean, applyAll_render.symm⟩

/-- Entries whose strings have every mark of the format in them, and a pattern without marks. -/
def marks : List (@KeyValue .literal) :=
  let _ := PatternEngine.literal
  [.ppflags [], .lang .cxx, .headers [bytes "a#b.h", bytes " ], = [", [], bytes "c\r"],
    .cflags [bytes "\r", bytes "-DX=[1, 2] # "], .filter (bytes "MAX_") _ rfl, .verbose true]

theorem load_render_marks :
    letI := PatternEngine.literal
    ∃ c', ({ compiler := [bytes "cc"] } : Configuration).load [] (render marks) = (c', none) ∧
      c'.headers = [bytes "a#b.h", bytes " ], = [", [], bytes "c\r"] ∧
      c'.flags = [bytes "\r", bytes "-DX=[1, 2] # "] ∧ c'.dumpFlags = some [] ∧
      c'.language = .cxx ∧ c'.compiler = [bytes "cc"] ∧
      (c'.filter.map fun keep => [bytes "INT_MAX_", bytes "INT_MIN_"].map keep) =
        some [true, false] := by
  let _ := PatternEngine.literal
  have hclean : ∀ e ∈ marks, e.Clean := by
    unfold KeyValue.Clean Plain
    decide
  obtain ⟨c', hload, hholds, hsame⟩ :=
    load_render [] { compiler := [bytes "cc"] } hclean (by decide)
  have hfilter : c'.filter = some _ := hholds (.filter (bytes "MAX_") _ rfl) (by simp [marks])
  refine ⟨c', hload, hholds (.headers _) ?_, hholds (.cflags _) ?_, hholds (.ppflags _) ?_,
    hholds (.lang _) ?_, hsame .cc (by decide), ?_⟩
  case refine_5 =>
    rw [hfilter]
    decide
  all_goals simp [marks]

end Configuration

end MacroConstants
