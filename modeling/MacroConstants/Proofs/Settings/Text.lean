import MacroConstants.Proofs.Settings.Grammar
import Mathlib.Data.List.Forall2

/-!
# What a settings file does

A settings text is accepted exactly if every line states something, and it then does what the lines
state, one after the other.  Which patterns a filter can have is for the pattern engine to say.

* `Settings.KeyValue` : a key with a value that it can take, and its effect on a configuration.
* `PatternEngine.literal` : a small engine, for examples.
* `Configuration.assign_eq_ok_iff` : a setting is applied exactly if it is such an entry.
* `Settings.Statement`, `Settings.States` : what a line states, down to the text that is passed over
  after the header of a section.
* `Configuration.load_accounts` : **what is accepted, and what becomes of every line.**
-/

namespace MacroConstants

/-- A fault in what was configured, as opposed to one of a command or of a temporary file. -/
def Fault.OfConfiguration : Fault → Prop
  | .command _ | .sourceRefused _ | .sourceUnwritten .. => False
  | _ => True

namespace Settings

/-! ### Entries -/

/-- An entry: a key with a value that it can take. -/
inductive KeyValue [PatternEngine] where
  | headers (items : List Bytes)
  | cc (items : List Bytes)
  | ppflags (items : List Bytes)
  | cflags (items : List Bytes)
  | extraCflags (items : List Bytes)
  | lang (language : Language)
  | filter (pattern : Bytes) (keep : Selector) (accepted : PatternEngine.compile pattern = .ok keep)
  | verbose (flag : Bool)

namespace KeyValue

variable [PatternEngine]

/-- The key. -/
def key : KeyValue → Key
  | headers _ => .headers
  | cc _ => .cc
  | ppflags _ => .ppflags
  | cflags _ => .cflags
  | extraCflags _ => .extraCflags
  | lang _ => .lang
  | filter .. => .filter
  | verbose _ => .verbose

/-- The value as it stands in a settings file. -/
def value : KeyValue → Value
  | headers items | cc items | ppflags items | cflags items | extraCflags items => .list items
  | lang language => .scalar language.name
  | filter pattern _ _ => .scalar pattern
  | verbose flag => .scalar (if flag then bytes "true" else bytes "false")

/-- The effect: one field is replaced. -/
def apply : KeyValue → Configuration → Configuration
  | headers items, c => { c with headers := items }
  | cc items, c => { c with compiler := items }
  | ppflags items, c => { c with dumpFlags := some items }
  | cflags items, c => { c with flags := items }
  | extraCflags items, c => { c with extraFlags := items }
  | lang language, c => { c with language }
  | filter _ keep _, c => { c with filter := some keep }
  | verbose flag, c => { c with verbose := flag }

end KeyValue

theorem Key.ofFullName?_eq_some_iff {text : Bytes} {k : Key} :
    Key.ofFullName? text = some k ↔ text = fullName k.name := by
  constructor
  · intro h
    exact (by simpa using List.find?_some h : fullName k.name = text).symm
  · rintro rfl
    cases k <;> decide

/-- A key starts with a letter and has no white space and no equals sign. -/
theorem Key.name_clean (k : Key) :
    Bytes.Bare Bytes.isLayout k.name ∧ ascii '=' ∉ k.name ∧ k.name.head? ≠ some (ascii '[') ∧
      k.name ≠ [] := by
  refine ⟨bare_of_all ?_, ?_, ?_, ?_⟩ <;> cases k <;> decide

end Settings

namespace Setting

variable {s : Setting} {source text : Bytes} {items : List Bytes} {flag : Bool}

theorem items_eq_ok_iff : s.items = .ok items ↔ s.value = .list items := by
  unfold Setting.items
  split <;> rename_i h <;> simp [h]

theorem scalar_eq_ok_iff : s.scalar = .ok text ↔ s.value = .scalar text := by
  unfold Setting.scalar
  split <;> rename_i h <;> simp [h]

theorem boolean_eq_ok_iff :
    s.boolean = .ok flag ↔ s.value = .scalar (if flag then bytes "true" else bytes "false") := by
  rw [← scalar_eq_ok_iff]
  unfold Setting.boolean
  split
  · rename_i h
    simp [h]
  · rename_i text h
    rw [h, Except.ok.injEq]
    split
    · rename_i htrue
      subst htrue
      cases flag <;> decide
    · rename_i htrue
      split
      · rename_i hfalse
        subst hfalse
        cases flag <;> decide
      · rename_i hfalse
        cases flag <;> simp [htrue, hfalse]

end Setting

theorem Language.ofName_eq_ok_iff {text : Bytes} {l : Language} :
    Language.ofName text = .ok l ↔ text = l.name := by
  unfold ofName ofName?
  by_cases hc : text = name c
  · subst hc
    cases l <;> decide
  · by_cases hx : text = name cxx
    · subst hx
      cases l <;> decide
    · cases l <;> simp [hc, hx]

theorem Language.ofName_eq_error_iff {text : Bytes} {fault : Fault} :
    Language.ofName text = .error fault ↔
      (∀ l : Language, l.name ≠ text) ∧ fault = .language text := by
  constructor
  · intro h
    refine ⟨fun l hl => ?_, ?_⟩
    · rw [Language.ofName_eq_ok_iff.2 hl.symm] at h
      cases h
    · unfold Language.ofName at h
      split at h
      · cases h
      · exact (Except.error.inj h).symm
  · rintro ⟨hnone, rfl⟩
    unfold Language.ofName
    split
    · rename_i l hl
      have hok : Language.ofName text = .ok l := by rw [Language.ofName, hl]
      exact absurd (Language.ofName_eq_ok_iff.1 hok).symm (hnone l)
    · rfl

namespace Selector

variable [PatternEngine] {pattern : Bytes}

theorem ofPattern_eq_ok_iff {keep : Selector} :
    ofPattern pattern = .ok keep ↔ PatternEngine.compile pattern = .ok keep :=
  mapError_eq_ok_iff

theorem ofPattern_eq_error_iff {fault : Fault} :
    ofPattern pattern = .error fault ↔
      ∃ reason, PatternEngine.compile pattern = .error reason ∧ fault = .filter pattern reason :=
  mapError_eq_error_iff

end Selector

/-- The engine of patterns without marks: one of letters, digits and underscores is found where it
stands, and every other is refused. -/
@[reducible]
def PatternEngine.literal : PatternEngine where
  compile pattern :=
    if pattern ≠ [] ∧ pattern.all Bytes.isWord then
      .ok fun text => (List.range text.length).any fun i => pattern.isPrefixOf (text.drop i)
    else .error (bytes "only letters, digits and underscores are understood")

namespace Configuration

open Settings

variable {c c' : Configuration} {source : Bytes} {s : Setting}

section Fields

variable {α : Type} {place : SettingFault → Fault}

theorem map_items_eq_ok_iff {f : List Bytes → Configuration} :
    (s.items.mapError place).map f = .ok c' ↔ ∃ items, s.value = .list items ∧ c' = f items := by
  simp only [map_eq_ok_iff, mapError_eq_ok_iff, Setting.items_eq_ok_iff]

theorem map_scalar_eq_ok_iff {read : Bytes → Except Fault α} {f : α → Configuration} :
    ((s.scalar.mapError place).bind read).map f = .ok c' ↔
      ∃ text a, s.value = .scalar text ∧ read text = .ok a ∧ c' = f a := by
  simp only [map_eq_ok_iff, bind_eq_ok_iff, mapError_eq_ok_iff, Setting.scalar_eq_ok_iff]
  constructor
  · rintro ⟨a, ⟨text, hvalue, hread⟩, rfl⟩
    exact ⟨text, a, hvalue, hread, rfl⟩
  · rintro ⟨text, a, hvalue, hread, rfl⟩
    exact ⟨a, ⟨text, hvalue, hread⟩, rfl⟩

theorem map_boolean_eq_ok_iff {f : Bool → Configuration} :
    (s.boolean.mapError place).map f = .ok c' ↔
      ∃ flag, s.value = .scalar (if flag then bytes "true" else bytes "false") ∧ c' = f flag := by
  simp only [map_eq_ok_iff, mapError_eq_ok_iff, Setting.boolean_eq_ok_iff]

end Fields

variable [PatternEngine]

/-- A setting is applied exactly if it is a key with a value that it can take. -/
theorem assign_eq_ok_iff :
    c.assign source s = .ok c' ↔
      ∃ e : KeyValue, s.key = fullName e.key.name ∧ s.value = e.value ∧ c' = e.apply c := by
  simp only [← Key.ofFullName?_eq_some_iff]
  unfold assign
  dsimp only
  constructor
  · intro h
    cases hkey : Key.ofFullName? s.key with
    | none =>
      rw [hkey] at h
      cases h
    | some k =>
      rw [hkey] at h
      cases k with
      | headers =>
        obtain ⟨items, hvalue, rfl⟩ := map_items_eq_ok_iff.1 h
        exact ⟨.headers items, rfl, hvalue, rfl⟩
      | cc =>
        obtain ⟨items, hvalue, rfl⟩ := map_items_eq_ok_iff.1 h
        exact ⟨.cc items, rfl, hvalue, rfl⟩
      | ppflags =>
        obtain ⟨items, hvalue, rfl⟩ := map_items_eq_ok_iff.1 h
        exact ⟨.ppflags items, rfl, hvalue, rfl⟩
      | cflags =>
        obtain ⟨items, hvalue, rfl⟩ := map_items_eq_ok_iff.1 h
        exact ⟨.cflags items, rfl, hvalue, rfl⟩
      | extraCflags =>
        obtain ⟨items, hvalue, rfl⟩ := map_items_eq_ok_iff.1 h
        exact ⟨.extraCflags items, rfl, hvalue, rfl⟩
      | lang =>
        obtain ⟨text, language, hvalue, hname, rfl⟩ := map_scalar_eq_ok_iff.1 h
        rw [Language.ofName_eq_ok_iff.1 hname] at hvalue
        exact ⟨.lang language, rfl, hvalue, rfl⟩
      | filter =>
        obtain ⟨pattern, keep, hvalue, haccepted, rfl⟩ := map_scalar_eq_ok_iff.1 h
        exact ⟨.filter pattern keep (Selector.ofPattern_eq_ok_iff.1 haccepted), rfl, hvalue, rfl⟩
      | verbose =>
        obtain ⟨flag, hvalue, rfl⟩ := map_boolean_eq_ok_iff.1 h
        exact ⟨.verbose flag, rfl, hvalue, rfl⟩
  · rintro ⟨e, hkey, hvalue, rfl⟩
    rw [hkey]
    cases e with
    | headers items => exact map_items_eq_ok_iff.2 ⟨items, hvalue, rfl⟩
    | cc items => exact map_items_eq_ok_iff.2 ⟨items, hvalue, rfl⟩
    | ppflags items => exact map_items_eq_ok_iff.2 ⟨items, hvalue, rfl⟩
    | cflags items => exact map_items_eq_ok_iff.2 ⟨items, hvalue, rfl⟩
    | extraCflags items => exact map_items_eq_ok_iff.2 ⟨items, hvalue, rfl⟩
    | lang language =>
      have hname := Language.ofName_eq_ok_iff.2 (Eq.refl language.name)
      exact map_scalar_eq_ok_iff.2 ⟨language.name, language, hvalue, hname, rfl⟩
    | filter pattern keep accepted =>
      have hkeep := Selector.ofPattern_eq_ok_iff.2 accepted
      exact map_scalar_eq_ok_iff.2 ⟨pattern, keep, hvalue, hkeep, rfl⟩
    | verbose flag => exact map_boolean_eq_ok_iff.2 ⟨flag, hvalue, rfl⟩

/-- The fault of a setting that cannot be applied concerns the configuration. -/
theorem ofConfiguration_of_assign {fault : Fault} (h : c.assign source s = .error fault) :
    fault.OfConfiguration := by
  have hplace : ∀ {α : Type} {x : Except SettingFault α} {g : Fault},
      x.mapError (Fault.setting source s.line) = .error g → g.OfConfiguration := by
    intro α x g hg
    obtain ⟨f, -, rfl⟩ := mapError_eq_error_iff.1 hg
    trivial
  unfold assign at h
  dsimp only at h
  cases hkey : Key.ofFullName? s.key with
  | none =>
    rw [hkey] at h
    rw [← Except.error.inj h]
    trivial
  | some k =>
    rw [hkey] at h
    cases k with
    | lang =>
      rcases bind_eq_error_iff.1 (map_eq_error_iff.1 h) with h | ⟨text, -, h⟩
      · exact hplace h
      · obtain ⟨-, rfl⟩ := Language.ofName_eq_error_iff.1 h
        trivial
    | filter =>
      rcases bind_eq_error_iff.1 (map_eq_error_iff.1 h) with h | ⟨text, -, h⟩
      · exact hplace h
      · obtain ⟨reason, -, rfl⟩ := Selector.ofPattern_eq_error_iff.1 h
        trivial
    | _ => exact hplace (map_eq_error_iff.1 h)

end Configuration

namespace Settings

open Bytes

theorem Assigns.head?_ne {s : Bytes} {k : Key} {value : Value} (h : Assigns s k.name value) :
    s.head? ≠ some (ascii '[') := by
  obtain ⟨before, after, text, rfl, -⟩ := h
  obtain ⟨-, -, hhead, hne⟩ := k.name_clean
  rwa [List.append_assoc, List.head?_append_of_ne_nil _ hne]

/-- What follows the closing bracket if an opening one starts the content. -/
def leftoverOf (s : Bytes) : Bytes :=
  if s.head? = some (ascii '[') then (s.dropWhile (· != ascii ']')).tail else []

/-! ### Statements -/

variable [PatternEngine]

/-- What a line states.  A header has its leftover: the text after its closing bracket, which is not
looked at. -/
inductive Statement where
  | blank
  | header (leftover : Bytes)
  | setting (entry : KeyValue)

namespace Statement

/-- The text of a line that is passed over although it is no comment. -/
def leftover : Statement → Bytes
  | header leftover => leftover
  | _ => []

/-- Whether a section begins. -/
def isHeader : Statement → Bool
  | header _ => true
  | _ => false

/-- The effect: entries are assigned, the others do nothing. -/
def apply : Statement → Configuration → Configuration
  | setting entry, c => entry.apply c
  | _, c => c

/-- The effect of statements in order. -/
def applyAll (statements : List Statement) (c : Configuration) : Configuration :=
  statements.foldl (fun c s => s.apply c) c

end Statement

/-- What a line states: nothing, that the section begins, or one whole entry. -/
inductive States (line : Bytes) : Statement → Prop
  | blank : Content line [] → States line .blank
  | header {s leftover : Bytes} : Content line s → IsHeader s leftover →
      States line (.header leftover)
  | setting {s : Bytes} {e : KeyValue} : Content line s → Assigns s e.key.name e.value →
      States line (.setting e)

/-- No entry stands before the first header, or a section has begun before. -/
def Headed (opened : Bool) (statements : List Statement) : Prop :=
  opened = true ∨ ∀ e, Statement.setting e ∉ statements.takeWhile (!·.isHeader)

/-- The lines of a text state these statements, and no entry stands before the first header. -/
structure Accounts (text : Bytes) (statements : List Statement) : Prop where
  lines : List.Forall₂ States text.lines statements
  headed : Headed false statements

/-- Nothing in a text is passed over but white space and comments: every line is blank, a header
that ends with its bracket, or one whole entry. -/
def Complete (text : Bytes) : Prop := ∀ line ∈ text.lines, ∃ s, States line s ∧ s.leftover = []

variable {opened : Bool} {line s source : Bytes} {c c' : Configuration} {number : ℕ} {e : KeyValue}
  {statements : List Statement}

theorem headed_blank : Headed opened (.blank :: statements) ↔ Headed opened statements := by
  simp [Headed, Statement.isHeader]

theorem headed_header {leftover : Bytes} : Headed opened (.header leftover :: statements) := by
  simp [Headed, Statement.isHeader]

theorem headed_setting : Headed opened (.setting e :: statements) ↔ opened = true := by
  constructor
  · rintro (h | h)
    · exact h
    · exact absurd (by simp [Statement.isHeader]) (h e)
  · exact .inl

/-! ### Reading and assigning a line -/

theorem readLine_blank_iff : readLine opened line = .ok .blank ↔ States line .blank := by
  rw [readLine_eq_ok_iff]
  constructor
  · rintro ⟨s, hcontent, h⟩
    cases h
    exact .blank hcontent
  · rintro ⟨h⟩
    exact ⟨[], h, .blank⟩

theorem readLine_header_iff :
    readLine opened line = .ok .header ↔ ∃ leftover, States line (.header leftover) := by
  rw [readLine_eq_ok_iff]
  constructor
  · rintro ⟨s, hcontent, h⟩
    cases h with
    | header h => exact ⟨_, .header hcontent h⟩
  · rintro ⟨leftover, h⟩
    cases h with
    | header hcontent h => exact ⟨_, hcontent, .header h⟩

theorem readLine_of_states {e : KeyValue} (hopened : opened = true)
    (h : States line (.setting e)) :
    readLine opened line = .ok (.setting (fullName e.key.name) e.value) := by
  cases h with
  | setting hcontent hassigns =>
    obtain ⟨hbare, hnot, -, -⟩ := e.key.name_clean
    have hsays := Says.setting hopened hassigns.head?_ne hbare hnot hassigns
    exact readLine_eq_ok_iff.2 ⟨_, hcontent, hsays⟩

/-- A line is read and assigned exactly if it states an entry. -/
theorem readLine_setting_iff :
    (∃ key value, readLine opened line = .ok (.setting key value) ∧
        c.assign source ⟨key, value, number⟩ = .ok c') ↔
      opened = true ∧ ∃ e, States line (.setting e) ∧ c' = e.apply c := by
  constructor
  · rintro ⟨_, value, hread, hassign⟩
    obtain ⟨s, hcontent, h⟩ := readLine_eq_ok_iff.1 hread
    cases h with
    | setting hopened _ _ _ hassigns =>
      obtain ⟨e, hkey, hvalue, rfl⟩ := Configuration.assign_eq_ok_iff.1 hassign
      obtain rfl := List.append_cancel_left hkey
      obtain rfl : value = e.value := hvalue
      exact ⟨hopened, e, .setting hcontent hassigns, rfl⟩
  · rintro ⟨hopened, e, h, rfl⟩
    exact ⟨_, _, readLine_of_states hopened h,
      Configuration.assign_eq_ok_iff.2 ⟨e, rfl, rfl, rfl⟩⟩

theorem assignAll_cons_iff {x : Setting} {settings : List Setting} :
    c.assignAll source (x :: settings) = (c', none) ↔
      ∃ c₁, c.assign source x = .ok c₁ ∧ c₁.assignAll source settings = (c', none) := by
  rw [Configuration.assignAll]
  cases c.assign source x <;> simp

/-- By induction on the lines; what a line leaves to the others is the configuration after it and
whether a section has begun. -/
theorem readLines_assignAll_iff {lines : List Bytes} :
    (∃ settings, readLines opened number lines = .ok settings ∧
        c.assignAll source settings = (c', none)) ↔
      ∃ statements, List.Forall₂ States lines statements ∧ Headed opened statements ∧
        c' = Statement.applyAll statements c := by
  induction lines generalizing opened number c with
  | nil =>
    constructor
    · rintro ⟨_, ⟨⟩, ⟨⟩⟩
      exact ⟨[], .nil, .inr (by simp), rfl⟩
    · rintro ⟨_, ⟨⟩, -, rfl⟩
      exact ⟨[], rfl, rfl⟩
  | cons line lines ih =>
    constructor
    · rintro ⟨settings, hread, hassign⟩
      rw [readLines] at hread
      split at hread
      · cases hread
      · rename_i hline
        obtain ⟨statements, hall, hheaded, rfl⟩ := ih.1 ⟨settings, hread, hassign⟩
        exact ⟨.blank :: statements, .cons (readLine_blank_iff.1 hline) hall,
          headed_blank.2 hheaded, rfl⟩
      · rename_i hline
        obtain ⟨leftover, hstates⟩ := readLine_header_iff.1 hline
        obtain ⟨statements, hall, -, rfl⟩ := ih.1 ⟨settings, hread, hassign⟩
        exact ⟨.header leftover :: statements, .cons hstates hall, headed_header, rfl⟩
      · rename_i key value hline
        obtain ⟨settings, hrest, rfl⟩ := map_eq_ok_iff.1 hread
        obtain ⟨c₁, hfirst, hassign⟩ := assignAll_cons_iff.1 hassign
        obtain ⟨hopened, e, hstates, rfl⟩ := readLine_setting_iff.1 ⟨key, value, hline, hfirst⟩
        obtain ⟨statements, hall, -, rfl⟩ := ih.1 ⟨settings, hrest, hassign⟩
        exact ⟨.setting e :: statements, .cons hstates hall, headed_setting.2 hopened, rfl⟩
    · rintro ⟨_, hall, hheaded, rfl⟩
      rw [readLines]
      cases hall with
      | cons hstates hall =>
        rename_i statement statements
        cases statement with
        | blank =>
          rw [readLine_blank_iff.2 hstates]
          exact ih.2 ⟨statements, hall, headed_blank.1 hheaded, rfl⟩
        | header leftover =>
          rw [readLine_header_iff.2 ⟨leftover, hstates⟩]
          exact ih.2 ⟨statements, hall, .inl rfl, rfl⟩
        | setting e =>
          have hopened := headed_setting.1 hheaded
          obtain ⟨key, value, hline, hfirst⟩ : ∃ key value,
              readLine opened line = .ok (.setting key value) ∧
                c.assign source ⟨key, value, number⟩ = .ok (e.apply c) :=
            readLine_setting_iff.2 ⟨hopened, e, hstates, rfl⟩
          obtain ⟨settings, hread, hassign⟩ := ih.2 ⟨statements, hall, .inl hopened, rfl⟩
          rw [hline]
          exact ⟨_, map_eq_ok_iff.2 ⟨settings, hread, rfl⟩,
            assignAll_cons_iff.2 ⟨_, hfirst, hassign⟩⟩

/-! ### What is passed over -/

theorem leftover_eq {statement : Statement} (h : States line statement) (hs : Content line s) :
    statement.leftover = leftoverOf s := by
  have hsame : ∀ {t}, Content line t → t = s := fun ht =>
    (content_iff.1 ht).symm.trans (content_iff.1 hs)
  cases h with
  | blank hcontent =>
    obtain rfl := hsame hcontent
    rfl
  | header hcontent h =>
    obtain rfl := hsame hcontent
    rw [leftoverOf, if_pos h.head?]
    obtain ⟨before, after, rfl, hbefore, hafter⟩ := h
    have hinside : ascii ']' ∉ ascii '[' :: (before ++ sectionName ++ after) := by
      simp only [List.mem_cons, List.mem_append, not_or]
      exact ⟨by decide, ⟨hbefore.notMem rfl, by decide⟩, hafter.notMem rfl⟩
    rw [← List.cons_append, (cut_iff.2 ⟨rfl, hinside⟩).2]
    rfl
  | setting hcontent h =>
    obtain rfl := hsame hcontent
    rw [leftoverOf, if_neg h.head?_ne]
    rfl

theorem States.exists_content {statement : Statement} (h : States line statement) :
    ∃ s, Content line s := by
  cases h with
  | blank h => exact ⟨_, h⟩
  | header h => exact ⟨_, h⟩
  | setting h => exact ⟨_, h⟩

/-- All that a line may be said to state passes over the same. -/
theorem leftover_unique {statement statement' : Statement} (h : States line statement)
    (h' : States line statement') : statement.leftover = statement'.leftover := by
  obtain ⟨s, hs⟩ := h.exists_content
  rw [leftover_eq h hs, leftover_eq h' hs]

theorem forall_exists_states_iff {lines : List Bytes} (h : List.Forall₂ States lines statements) :
    (∀ line ∈ lines, ∃ s, States line s ∧ s.leftover = []) ↔
      ∀ s ∈ statements, s.leftover = [] := by
  induction h with
  | nil => simp
  | cons hstates _ ih =>
    rw [List.forall_mem_cons, List.forall_mem_cons, ih]
    refine and_congr_left fun _ => ⟨?_, fun h => ⟨_, hstates, h⟩⟩
    rintro ⟨s, hs, hempty⟩
    rw [leftover_unique hstates hs, hempty]

end Settings

namespace Configuration

open Settings

section Loaded

variable [PatternEngine] {c c' : Configuration} {source text : Bytes} {fault : Fault}

theorem ofConfiguration_of_assignAll {settings : List Setting}
    (h : c.assignAll source settings = (c', some fault)) : fault.OfConfiguration := by
  induction settings generalizing c with
  | nil => cases h
  | cons s settings ih =>
    rw [assignAll] at h
    split at h
    · exact ih h
    · rename_i hassign
      rw [← Option.some.inj (Prod.mk.inj h).2]
      exact ofConfiguration_of_assign hassign

theorem ofConfiguration_of_load (h : c.load source text = (c', some fault)) :
    fault.OfConfiguration := by
  unfold load at h
  split at h
  · rw [← Option.some.inj (Prod.mk.inj h).2]
    trivial
  · exact ofConfiguration_of_assignAll h

/-- A text is accepted exactly if its lines state something, and then does what they state. -/
theorem load_eq_none_iff :
    c.load source text = (c', none) ↔
      ∃ statements, Accounts text statements ∧ c' = Statement.applyAll statements c := by
  have hload : c.load source text = (c', none) ↔
      ∃ settings, readLines false 1 text.lines = .ok settings ∧
        c.assignAll source settings = (c', none) := by
    unfold load Settings.read
    cases readLines false 1 text.lines <;> simp
  rw [hload, readLines_assignAll_iff]
  constructor
  · rintro ⟨statements, hlines, hheaded, h⟩
    exact ⟨statements, ⟨hlines, hheaded⟩, h⟩
  · rintro ⟨statements, ⟨hlines, hheaded⟩, h⟩
    exact ⟨statements, hlines, hheaded, h⟩

/-- **What a settings text does.**  It is accepted exactly if every line is blank, a header or one
whole entry, with a header before the first entry, and then the entries take effect in their order;
any other text ends in a fault of the configuration.  Nothing but comments is passed over exactly
if no header is followed by a text on its line. -/
theorem load_accounts (source text : Bytes) (c : Configuration) :
    (∀ c', c.load source text = (c', none) ↔
      ∃ statements, Accounts text statements ∧ c' = Statement.applyAll statements c) ∧
    (∀ c' fault, c.load source text = (c', some fault) → fault.OfConfiguration) ∧
    ∀ statements, Accounts text statements →
      (Complete text ↔ ∀ s ∈ statements, s.leftover = []) :=
  ⟨fun _ => load_eq_none_iff, fun _ _ => ofConfiguration_of_load,
    fun _ h => forall_exists_states_iff h.lines⟩

end Loaded

/-- A line on which an entry follows the header. -/
def crowded : Bytes := bytes "[discovery] headers = [\"a.h\"]"

/-- The entry after a header is passed over. -/
theorem load_crowded :
    letI := PatternEngine.literal
    (({} : Configuration).load [] crowded).1.headers = [] ∧
      (({} : Configuration).load [] crowded).2 = none ∧ ¬ Complete crowded := by
  let _ := PatternEngine.literal
  have hstates : States crowded (.header (bytes " headers = [\"a.h\"]")) := by
    refine .header (s := crowded) (content_iff.2 (by decide)) ⟨[], [], rfl, ?_, ?_⟩ <;>
      simp [Layout]
  refine ⟨by decide, by decide, fun h => ?_⟩
  obtain ⟨s, hs, hempty⟩ := h crowded (by decide)
  rw [leftover_unique hs hstates] at hempty
  cases hempty

end Configuration

end MacroConstants
