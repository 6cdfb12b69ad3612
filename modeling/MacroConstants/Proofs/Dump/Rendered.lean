import MacroConstants.Proofs.Dump

/-!
# Macros written as a dump

Macros can be written as a dump that defines just them, one directive on each line.  A name may have
any bytes but those that end it or make it a macro with parameters, and a text any bytes but those
that are cut off around it.

* `Directive` : a macro as it is written, with the blanks before its name and before its text.
* `Directive.readLine_line` : its line is read as the macro.
* `Directive.Written` : a dump with a line for each directive.
* `Dump.definitions_written` : **a written dump is read back as its macros, in their order, numbered
  from one, and without a warning.**
-/

namespace MacroConstants

open Bytes Dump

/-- A macro without parameters as it is written.  Blanks would end its name or be cut off around
its text, a newline would end its line, and returns at the end of the line would be lost. -/
structure Directive where
  name : Bytes
  text : Bytes
  /-- The blanks before the name. -/
  before : Bytes := bytes " "
  /-- The blanks before the text. -/
  between : Bytes := bytes " "
  name_ne_nil : name ≠ []
  name_clean : ∀ b ∈ name, b ∉ [ascii ' ', ascii '\t', ascii '\n', ascii '(', ascii ')']
  text_bare : Bare isBlank text
  newline_notMem_text : ascii '\n' ∉ text
  text_end : text.getLast? ≠ some (ascii '\r')
  name_end : text = [] → name.getLast? ≠ some (ascii '\r')
  before_ne_nil : before ≠ [] := by decide
  between_ne_nil : text ≠ [] → between ≠ [] := by decide
  blanks : ∀ b ∈ before ++ between, isBlank b = true := by decide +kernel

namespace Directive

variable {d : Directive} {ds : List Directive} {text : Bytes}

/-- The line of a directive. -/
def line (d : Directive) : Bytes := bytes "#define" ++ d.before ++ d.name ++ d.between ++ d.text

theorem newline_notMem_line (d : Directive) : ascii '\n' ∉ d.line := by
  have hblanks : ascii '\n' ∉ d.before ++ d.between := fun h => by
    have := d.blanks _ h
    contradiction
  have hname : ascii '\n' ∉ d.name := fun h => d.name_clean _ h (by simp)
  have hword : ascii '\n' ∉ bytes "#define" := by decide
  simp only [List.mem_append, not_or] at hblanks
  simp only [line, List.mem_append, not_or]
  exact ⟨⟨⟨⟨hword, hblanks.1⟩, hname⟩, hblanks.2⟩, d.newline_notMem_text⟩

/-- A line ends with its text, or with blanks, or with its name; none of them ends with a return. -/
theorem getLast?_line (d : Directive) : d.line.getLast? ≠ some (ascii '\r') := by
  unfold line
  by_cases htext : d.text = []
  · rw [htext, List.append_nil]
    by_cases hbetween : d.between = []
    · rw [hbetween, List.append_nil, List.getLast?_append_of_ne_nil _ d.name_ne_nil]
      exact d.name_end htext
    · rw [List.getLast?_append_of_ne_nil _ hbetween]
      intro h
      have := d.blanks _ (List.mem_append_right _ (List.mem_of_getLast? h))
      contradiction
  · rw [List.getLast?_append_of_ne_nil _ htext]
    exact d.text_end

theorem withoutReturns_line (d : Directive) : withoutReturns d.line = d.line := by
  have hend : ∀ b ∈ d.line.getLast?, (b == ascii '\r') = false := by
    intro b hb
    rw [beq_eq_false_iff_ne]
    rintro rfl
    exact d.getLast?_line hb
  have := trimEnd_append hend (List.forall_mem_nil _)
  rwa [List.append_nil] at this

theorem gives_line (d : Directive) : Gives d.line d.name d.text := by
  refine ⟨d.before, d.between, [], by rw [line, List.append_nil], d.before_ne_nil, d.name_ne_nil,
    d.between_ne_nil, by simpa using d.blanks, fun b hb => ?_, d.text_bare⟩
  have hclean := d.name_clean b hb
  simp only [List.mem_cons, not_or] at hclean
  simp [Solid, isBlank, hclean.1, hclean.2.1]

/-- The line of a directive is read as its macro. -/
theorem readLine_line (d : Directive) : readLine d.line = .object d.name d.text := by
  refine readLine_eq_object_iff.2 ⟨by rw [withoutReturns_line]; exact d.gives_line, ?_⟩
  refine List.any_eq_false.2 fun b hb => ?_
  have hclean := d.name_clean b hb
  simp only [List.mem_cons, not_or] at hclean
  simp [isParenthesis, hclean.2.2.2.1, hclean.2.2.2.2.1]

/-- The macro that a directive defines on the line with a number, counted from zero. -/
def definition (x : Directive × ℕ) : Definition := ⟨x.1.name, x.1.text, (x.2 + 1).toUInt32⟩

/-- The dump has a line for each directive, and perhaps a newline after the last one. -/
def Written (ds : List Directive) (text : Bytes) : Prop :=
  text = (ds.map line).flatMap (· ++ [ascii '\n']) ∨ text = [ascii '\n'].intercalate (ds.map line)

/-- Nothing but an empty line comes after the lines of the directives. -/
theorem Written.exists_lines (h : Written ds text) :
    ∃ rest, text.lines = ds.map line ++ rest ∧ ∀ l ∈ rest, l = [] := by
  have hnewline : ∀ l ∈ ds.map line, ascii '\n' ∉ l :=
    List.forall_mem_map.2 fun d _ => d.newline_notMem_line
  rcases h with rfl | rfl
  · exact ⟨[[]], lines_flatMap hnewline, by simp⟩
  · cases ds with
    | nil => exact ⟨[[]], rfl, by simp⟩
    | cons d ds =>
      refine ⟨[], ?_, by simp⟩
      rw [List.append_nil]
      exact List.splitOn_intercalate _ hnewline (by simp)

/-- What is taken from a written dump is what is taken from its directives. -/
theorem Written.filterMap_numbered {α : Type} (h : Written ds text)
    {take : Line × UInt32 → Option α} (hblank : ∀ n, take (.blank, n) = none) :
    (numbered text).filterMap take =
      ds.zipIdx.filterMap fun x => take (.object x.1.name x.1.text, (x.2 + 1).toUInt32) := by
  obtain ⟨rest, hlines, hrest⟩ := h.exists_lines
  have hread : text.lines.map readLine =
      ds.map (fun d => .object d.name d.text) ++ rest.map fun _ => .blank := by
    rw [hlines, List.map_append, List.map_map]
    congr 1
    · exact List.map_congr_left fun d _ => d.readLine_line
    · exact List.map_congr_left fun l hl => by rw [hrest l hl]; rfl
  rw [numbered_eq, hread, List.zipIdx_append, List.map_append, List.filterMap_append,
    List.filterMap_map, List.zipIdx_map, List.filterMap_map]
  -- the lines after those of the directives are blank, whatever their numbers are
  refine List.append_right_eq_self.2 ?_
  rw [List.zipIdx_map, List.map_map, List.filterMap_map]
  exact List.filterMap_eq_nil_iff.2 fun x _ => hblank _

end Directive

namespace Dump

/-- **A written dump is read back.**  If all names are kept, the definitions of a dump that is
written with a line for each directive are the macros of the directives in their order, on the lines
one, two, three and so on, and no line is reported.  The numbers are counted in 32 bits, so they are
exact as long as there are fewer than `2 ^ 32` lines. -/
theorem definitions_written (keep : Selector) {ds : List Directive} {text : Bytes}
    (hkeep : ∀ d ∈ ds, keep d.name = true) (hwritten : Directive.Written ds text) :
    definitions keep text = ds.zipIdx.map Directive.definition ∧ warnings text = [] ∧
      (ds.length < 2 ^ 32 →
        (definitions keep text).map (·.line.toNat) = List.range' 1 ds.length) := by
  have hdefinitions : definitions keep text = ds.zipIdx.map Directive.definition := by
    unfold definitions
    rw [hwritten.filterMap_numbered fun _ => rfl, ← List.filterMap_eq_map]
    refine List.filterMap_congr fun x hx => ?_
    simp only [definition?, hkeep x.1 (List.fst_mem_of_mem_zipIdx hx), if_true]
    rfl
  refine ⟨hdefinitions, ?_, fun hlen => ?_⟩
  · unfold warnings
    rw [hwritten.filterMap_numbered fun _ => rfl]
    exact List.filterMap_eq_nil_iff.2 fun x _ => rfl
  · -- so many lines are counted without wrapping around
    have hnumber : ∀ x ∈ ds.zipIdx, (Directive.definition x).line.toNat = 1 + x.2 := fun x hx => by
      have hx := List.snd_lt_of_mem_zipIdx hx
      rw [Nat.add_comm]
      exact Nat.mod_eq_of_lt (by omega)
    calc (definitions keep text).map (·.line.toNat)
        = ds.zipIdx.map fun x => (Directive.definition x).line.toNat := by
          rw [hdefinitions, List.map_map]
          rfl
      _ = ds.zipIdx.map fun x => 1 + x.2 := List.map_congr_left hnumber
      _ = (ds.zipIdx.map Prod.snd).map (1 + ·) := by rw [List.map_map]; rfl
      _ = List.range' 1 ds.length := by rw [List.zipIdx_map_snd, List.map_add_range']

/-- A name and a text made of marks that mean something elsewhere on a line. -/
def trickyDirective : Directive where
  name := bytes "#define\r"
  text := bytes "#define F(x) \"\r//\x0b"
  before := bytes "\t  "
  between := bytes " \t"
  name_ne_nil := by decide
  name_clean := by decide +kernel
  text_bare := ⟨by decide +kernel, by decide +kernel⟩
  newline_notMem_text := by decide
  text_end := by decide
  name_end := by decide

/-- A name alone on its line. -/
def bareDirective : Directive where
  name := bytes "\x0bB"
  text := []
  between := []
  name_ne_nil := by decide
  name_clean := by decide +kernel
  text_bare := ⟨by decide +kernel, by decide +kernel⟩
  newline_notMem_text := by decide
  text_end := by decide
  name_end := by decide

/-- The two directives written as a dump. -/
def trickyDump : Bytes :=
  bytes "#define\t  #define\r \t#define F(x) \"\r//\x0b\n#define \x0bB\n"

theorem definitions_written_tricky :
    (∀ d ∈ [trickyDirective, bareDirective], Selector.default d.name = true) ∧
      Directive.Written [trickyDirective, bareDirective] trickyDump ∧
      definitions Selector.default trickyDump =
        [⟨bytes "#define\r", bytes "#define F(x) \"\r//\x0b", 1⟩, ⟨bytes "\x0bB", [], 2⟩] := by
  have hkeep : ∀ d ∈ [trickyDirective, bareDirective], Selector.default d.name = true := by decide
  have hwritten : Directive.Written [trickyDirective, bareDirective] trickyDump := .inl (by decide)
  exact ⟨hkeep, hwritten, (definitions_written Selector.default hkeep hwritten).1⟩

end Dump

end MacroConstants
