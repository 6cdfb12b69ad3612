import MacroConstants.Proofs.Settings.Rendered

/-!
# What a settings text does that fails

A settings text is read as a whole before any of it takes effect.  So a line that cannot be read
leaves the configuration as it was; and if all lines can be read, a setting that cannot be applied
ends the text just before its line.

* `Setting.Fits` : a setting that can be applied.
* `Settings.linesBefore` : the lines before a line, as a text.
* `Settings.FirstUnread` : the first line of a text that cannot be read.
* `Settings.FirstUnfit` : the first setting of a text that cannot be applied.
* `Settings.readLines_cons_or` : what one line does before others.
* `Settings.exists_line_of_readLines` : a setting stands on its line, and the lines before it give
  the settings before it.
* `Settings.firstUnread_iff` : reading a text ends at its first line that cannot be read.
* `Configuration.load_of_firstUnfit` : the settings before that one take effect, and no other.
* `Configuration.load_failure` : **what a text that fails leaves behind**.
-/

namespace MacroConstants

open Settings

/-- A setting that can be applied: its key is known and can take its value. -/
def Setting.Fits [PatternEngine] (s : Setting) : Prop :=
  ∃ e : KeyValue, s.key = fullName e.key.name ∧ s.value = e.value

namespace Settings

variable {opened : Bool} {number : ℕ} {text : Bytes} {lines : List Bytes} {s : Setting}
  {earlier later : List Setting} {fault : SettingFault}

/-- The lines of a text before line `number`, which are counted from one. -/
def linesBefore (text : Bytes) (number : ℕ) : Bytes :=
  (text.lines.take (number - 1)).flatMap (· ++ [ascii '\n'])

/-- The first line of a text that cannot be read, and why. -/
structure FirstUnread (text : Bytes) (number : ℕ) (fault : SettingFault) : Prop where
  /-- The lines before it can be read. -/
  before : ∃ settings, Settings.read (linesBefore text number) = .ok settings
  /-- With this line they cannot. -/
  line : Settings.read (linesBefore text (number + 1)) = .error (number, fault)

/-- The first setting of a text that cannot be applied. -/
structure FirstUnfit [PatternEngine] (text : Bytes) (s : Setting) : Prop where
  /-- All lines of the text can be read, and the settings before it can be applied. -/
  read : ∃ earlier later, Settings.read text = .ok (earlier ++ s :: later) ∧
    ∀ x ∈ earlier, x.Fits
  unfit : ¬ s.Fits
  /-- It stands on its line. -/
  line : ∃ line, text.lines[s.line - 1]? = some line ∧
    readLine true line = .ok (.setting s.key s.value)

/-! ### Line by line -/

theorem opened_of_readLine {line key : Bytes} {value : Value}
    (h : readLine opened line = .ok (.setting key value)) : opened = true := by
  obtain ⟨content, -, hsays⟩ := readLine_eq_ok_iff.1 h
  cases hsays with
  | setting hopened => exact hopened

/-- What a line does before others: it ends the reading, or it puts at most one setting before
theirs, which stands on this line. -/
theorem readLines_cons_or (opened : Bool) (number : ℕ) (line : Bytes) :
    (∃ fault, ∀ rest, readLines opened number (line :: rest) = .error (number, fault)) ∨
      ∃ (opened' : Bool) (first : Option Setting),
        (∀ s, first = some s → s.line = number ∧
          readLine true line = .ok (.setting s.key s.value)) ∧
        ∀ rest, readLines opened number (line :: rest) =
          (readLines opened' (number + 1) rest).map (first.toList ++ ·) := by
  cases hline : readLine opened line with
  | error fault => exact .inl ⟨fault, fun rest => by rw [readLines, hline]⟩
  | ok content =>
    refine .inr ?_
    cases content with
    | blank =>
      refine ⟨opened, none, by simp, fun rest => ?_⟩
      rw [readLines, hline]
      cases readLines opened (number + 1) rest <;> rfl
    | header =>
      refine ⟨true, none, by simp, fun rest => ?_⟩
      rw [readLines, hline]
      cases readLines true (number + 1) rest <;> rfl
    | setting key value =>
      refine ⟨opened, some ⟨key, value, number⟩, ?_, fun rest => ?_⟩
      · rintro s ⟨⟩
        rw [opened_of_readLine hline] at hline
        exact ⟨rfl, hline⟩
      · rw [readLines, hline]
        rfl

/-- A setting stands on its line, and the lines before it give just the settings before it. -/
theorem exists_line_of_readLines
    (h : readLines opened number lines = .ok (earlier ++ s :: later)) :
    ∃ before line after, lines = before ++ line :: after ∧ s.line = number + before.length ∧
      readLines opened number before = .ok earlier ∧
      readLine true line = .ok (.setting s.key s.value) := by
  induction lines generalizing opened number earlier with
  | nil => simp [readLines] at h
  | cons line lines ih =>
    rcases readLines_cons_or opened number line with ⟨f, herror⟩ | ⟨opened', first, hfirst, hrest⟩
    · rw [herror] at h
      cases h
    · rw [hrest] at h
      obtain ⟨settings, hsettings, heq⟩ := map_eq_ok_iff.1 h
      -- either the setting stands on the first line, or it is one of the others
      have hcases : (first = some s ∧ earlier = []) ∨
          ∃ others, earlier = first.toList ++ others ∧ settings = others ++ s :: later := by
        cases first with
        | none => exact .inr ⟨earlier, rfl, heq.symm⟩
        | some x =>
          cases earlier with
          | nil => exact .inl ⟨congrArg some (List.cons.inj heq).1.symm, rfl⟩
          | cons y others =>
            obtain ⟨rfl, rfl⟩ := List.cons.inj heq
            exact .inr ⟨others, rfl, rfl⟩
      rcases hcases with ⟨hs, rfl⟩ | ⟨others, rfl, rfl⟩
      · obtain ⟨hnumber, hsetting⟩ := hfirst s hs
        exact ⟨[], line, lines, rfl, hnumber, rfl, hsetting⟩
      · obtain ⟨before, line', after, rfl, hnumber, hbefore, hsetting⟩ := ih hsettings
        refine ⟨line :: before, line', after, rfl, ?_, ?_, hsetting⟩
        · rw [hnumber, List.length_cons]
          omega
        · rw [hrest, hbefore]
          rfl

/-- Reading ends at a line with those before it, which can be read. -/
theorem exists_line_of_readLines_error {n : ℕ}
    (h : readLines opened number lines = .error (n, fault)) :
    ∃ before line after, lines = before ++ line :: after ∧ n = number + before.length ∧
      (∃ settings, readLines opened number before = .ok settings) ∧
      readLines opened number (before ++ [line]) = .error (n, fault) := by
  induction lines generalizing opened number with
  | nil => cases h
  | cons line lines ih =>
    rcases readLines_cons_or opened number line with ⟨f, herror⟩ | ⟨opened', first, -, hrest⟩
    · rw [herror] at h
      cases h
      exact ⟨[], line, lines, rfl, rfl, ⟨[], rfl⟩, herror []⟩
    · rw [hrest] at h
      obtain ⟨before, line', after, rfl, hnumber, ⟨settings, hbefore⟩, hline⟩ :=
        ih (map_eq_error_iff.1 h)
      refine ⟨line :: before, line', after, rfl, ?_, ⟨first.toList ++ settings, ?_⟩, ?_⟩
      · rw [hnumber, List.length_cons]
        omega
      · rw [hrest, hbefore]
        rfl
      · rw [List.cons_append, hrest, hline]
        rfl

/-- Nothing after a line that cannot be read makes up for it. -/
theorem readLines_append_of_error {e : ℕ × SettingFault}
    (h : readLines opened number lines = .error e) (more : List Bytes) :
    readLines opened number (lines ++ more) = .error e := by
  induction lines generalizing opened number with
  | nil => cases h
  | cons line lines ih =>
    rcases readLines_cons_or opened number line with ⟨f, herror⟩ | ⟨opened', first, -, hrest⟩
    · rw [herror] at h
      rw [List.cons_append, herror, h]
    · rw [hrest] at h
      rw [List.cons_append, hrest, ih (map_eq_error_iff.1 h)]
      rfl

/-! ### The lines before a line -/

theorem exists_line_of_read (h : Settings.read text = .ok (earlier ++ s :: later)) :
    ∃ line, text.lines[s.line - 1]? = some line ∧
      readLine true line = .ok (.setting s.key s.value) := by
  obtain ⟨before, line, after, hlines, hnumber, -, hsetting⟩ := exists_line_of_readLines h
  refine ⟨line, ?_, hsetting⟩
  rw [hlines, hnumber, Nat.add_sub_cancel_left, List.getElem?_append_right le_rfl, Nat.sub_self]
  rfl

/-- The empty line after a last newline says nothing. -/
theorem readLines_concat_nil (opened : Bool) (number : ℕ) (lines : List Bytes) :
    readLines opened number (lines ++ [[]]) = readLines opened number lines := by
  induction lines generalizing opened number with
  | nil => rfl
  | cons line lines ih => simp only [List.cons_append, readLines, ih]

/-- The lines before a line are read as lines of the text. -/
theorem read_linesBefore (text : Bytes) (number : ℕ) :
    Settings.read (linesBefore text number) =
      readLines false 1 (text.lines.take (number - 1)) := by
  have hplain : ∀ l ∈ text.lines.take (number - 1), ascii '\n' ∉ l := by
    intro l hl
    exact Bytes.notMem_of_mem_lines (List.mem_of_mem_take hl)
  rw [Settings.read, linesBefore, Bytes.lines_flatMap hplain, readLines_concat_nil]

theorem read_linesBefore_setting (h : Settings.read text = .ok (earlier ++ s :: later)) :
    Settings.read (linesBefore text s.line) = .ok earlier := by
  obtain ⟨before, line, after, hlines, hnumber, hbefore, -⟩ := exists_line_of_readLines h
  rw [read_linesBefore, hlines, hnumber, Nat.add_sub_cancel_left, List.take_left]
  exact hbefore

/-- A text that cannot be read has a first line that cannot. -/
theorem firstUnread_iff :
    FirstUnread text number fault ↔ Settings.read text = .error (number, fault) := by
  constructor
  · rintro ⟨-, hline⟩
    rw [read_linesBefore] at hline
    rw [Settings.read, ← List.take_append_drop (number + 1 - 1) text.lines]
    exact readLines_append_of_error hline _
  · intro h
    obtain ⟨before, line, after, hlines, rfl, ⟨settings, hbefore⟩, hline⟩ :=
      exists_line_of_readLines_error h
    refine ⟨⟨settings, ?_⟩, ?_⟩
    · rw [read_linesBefore, hlines, Nat.add_sub_cancel_left, List.take_left]
      exact hbefore
    · have hlength : 1 + before.length + 1 - 1 = (before ++ [line]).length := by
        rw [List.length_append, List.length_singleton]
        omega
      have hsplit : before ++ line :: after = before ++ [line] ++ after := by
        rw [List.append_assoc, List.singleton_append]
      rw [read_linesBefore, hlines, hlength, hsplit, List.take_left]
      exact hline

end Settings

namespace Configuration

section Loaded

variable [PatternEngine] {c c' : Configuration} {source text : Bytes} {s : Setting}
  {settings earlier : List Setting} {fault : Fault}

/-! ### Settings that cannot be applied -/

/-- Whether a setting can be applied does not depend on what was configured before. -/
theorem fits_iff : s.Fits ↔ ∃ c', c.assign source s = .ok c' := by
  simp only [assign_eq_ok_iff]
  constructor
  · rintro ⟨e, hkey, hvalue⟩
    exact ⟨e.apply c, e, hkey, hvalue, rfl⟩
  · rintro ⟨c', e, hkey, hvalue, -⟩
    exact ⟨e, hkey, hvalue⟩

theorem not_fits_iff : ¬ s.Fits ↔ ∃ fault, c.assign source s = .error fault := by
  have hfits : s.Fits ↔ ∃ c', c.assign source s = .ok c' := fits_iff
  rw [hfits]
  cases c.assign source s <;> simp

theorem exists_assignAll_of_fits (h : ∀ x ∈ settings, x.Fits) :
    ∃ c', c.assignAll source settings = (c', none) := by
  induction settings generalizing c with
  | nil => exact ⟨c, rfl⟩
  | cons x settings ih =>
    obtain ⟨hx, hrest⟩ := List.forall_mem_cons.1 h
    obtain ⟨c₁, hfirst⟩ := fits_iff.1 hx
    obtain ⟨c', hc'⟩ := ih hrest
    exact ⟨c', assignAll_cons_iff.2 ⟨c₁, hfirst, hc'⟩⟩

/-- Settings that can all be applied come before the others. -/
theorem assignAll_append (h : c.assignAll source earlier = (c', none)) (rest : List Setting) :
    c.assignAll source (earlier ++ rest) = c'.assignAll source rest := by
  induction earlier generalizing c with
  | nil =>
    obtain ⟨rfl, -⟩ := Prod.mk.inj h
    rfl
  | cons x earlier ih =>
    obtain ⟨c₁, hfirst, hrest⟩ := assignAll_cons_iff.1 h
    rw [List.cons_append, assignAll, hfirst]
    exact ih hrest

/-- Settings that fail do so at one that cannot be applied, after some that can. -/
theorem exists_of_assignAll (h : c.assignAll source settings = (c', some fault)) :
    ∃ earlier s later, settings = earlier ++ s :: later ∧ (∀ x ∈ earlier, x.Fits) ∧ ¬ s.Fits := by
  induction settings generalizing c with
  | nil => cases h
  | cons x settings ih =>
    rw [assignAll] at h
    split at h
    · rename_i c₁ hfirst
      obtain ⟨earlier, s, later, rfl, hearlier, hs⟩ := ih h
      refine ⟨x :: earlier, s, later, rfl, ?_, hs⟩
      exact List.forall_mem_cons.2 ⟨fits_iff.2 ⟨c₁, hfirst⟩, hearlier⟩
    · rename_i f hfirst
      exact ⟨[], x, settings, rfl, List.forall_mem_nil _, not_fits_iff.2 ⟨f, hfirst⟩⟩

/-! ### Texts -/

theorem load_of_read (h : Settings.read text = .ok settings) :
    c.load source text = c.assignAll source settings := by
  rw [load, h]

/-- The settings before the first that cannot be applied take effect, and no other. -/
theorem load_of_firstUnfit (h : FirstUnfit text s) (source : Bytes) (c : Configuration) :
    ∃ c' fault, c.load source (linesBefore text s.line) = (c', none) ∧
      c'.assign source s = .error fault ∧ c.load source text = (c', some fault) := by
  obtain ⟨earlier, later, hread, hearlier⟩ := h.read
  obtain ⟨c', hc'⟩ : ∃ c', c.assignAll source earlier = (c', none) :=
    exists_assignAll_of_fits hearlier
  -- it is refused whatever the settings before it have made of the configuration
  obtain ⟨fault, hs⟩ : ∃ fault, c'.assign source s = .error fault := not_fits_iff.1 h.unfit
  refine ⟨c', fault, ?_, hs, ?_⟩
  · rw [load_of_read (read_linesBefore_setting hread), hc']
  · rw [load_of_read hread, assignAll_append hc', assignAll, hs]

/-- A text that fails has a line that cannot be read or a setting that cannot be applied. -/
theorem firstUnread_or_firstUnfit (h : c.load source text = (c', some fault)) :
    (∃ number f, FirstUnread text number f) ∨ ∃ s, FirstUnfit text s := by
  cases hread : Settings.read text with
  | error e => exact .inl ⟨e.1, e.2, firstUnread_iff.2 hread⟩
  | ok settings =>
    rw [load_of_read hread] at h
    obtain ⟨earlier, s, later, rfl, hearlier, hs⟩ := exists_of_assignAll h
    exact .inr ⟨s, ⟨earlier, later, hread, hearlier⟩, hs, exists_line_of_read hread⟩

/-- **What a text that fails leaves behind.**  It has a first line that cannot be read, and then
nothing is changed, whatever the other lines say; or a first setting that cannot be applied, and
then the configuration is what the lines before make of it, which are a text that is accepted.  So
neither that line nor any after it has an effect: all texts that fail in this way after the same
lines leave the same configuration. -/
theorem load_failure (source text : Bytes) (c : Configuration) :
    (∀ c' fault, c.load source text = (c', some fault) →
      (∃ number f, FirstUnread text number f) ∨ ∃ s, FirstUnfit text s) ∧
    (∀ number f, FirstUnread text number f →
      c.load source text = (c, some (.setting source number f))) ∧
    ∀ s, FirstUnfit text s → ∃ c' fault, c.load source text = (c', some fault) ∧
      c.load source (linesBefore text s.line) = (c', none) ∧ c'.assign source s = .error fault ∧
      ∀ text' s', FirstUnfit text' s' → linesBefore text' s'.line = linesBefore text s.line →
        (c.load source text').1 = c' := by
  refine ⟨fun c' fault => firstUnread_or_firstUnfit, fun number f h => ?_, fun s hs => ?_⟩
  · rw [load, firstUnread_iff.1 h]
  · obtain ⟨c', fault, hbefore, hfault, hload⟩ := load_of_firstUnfit hs source c
    refine ⟨c', fault, hload, hbefore, hfault, fun text' s' hs' hsame => ?_⟩
    obtain ⟨c'', fault', hbefore', -, hload'⟩ := load_of_firstUnfit hs' source c
    rw [hsame, hbefore] at hbefore'
    rw [hload']
    exact (Prod.mk.inj hbefore').1.symm

end Loaded

/-- A language that is not known keeps the header before it, and nothing after it. -/
def unknownLanguage : Bytes :=
  bytes "[discovery]\nheaders = [\"a.h\"]\nlang = \"ada\"\nverbose = true\n"

example : letI := PatternEngine.literal
    (({} : Configuration).load [] unknownLanguage).1 = { headers := [bytes "a.h"] } := rfl

example : letI := PatternEngine.literal
    (({} : Configuration).load [] (unknownLanguage ++ bytes "verbose")).1 = {} := rfl

end Configuration

end MacroConstants
