import MacroConstants.Proofs.Json.Number
import MacroConstants.Proofs.Settings.Failure

/-!
# Which line is blamed

A settings text that fails is blamed on one of its lines: the first that cannot be read or, if all
can, the line of the first setting that cannot be applied.  The message starts with the name of the
text and the number of this line, unless what is wrong is a word that names no language or a text
that the pattern engine refuses: these two are worded where a command line finds them too, without a
place.

* `Settings.Blamed` : the line that is blamed, which is the only one.
* `Settings.place` : how a message names a line.
* `Setting.Wrong` : what may be wrong with a setting, key by key.
* `Configuration.assign_eq_error_iff` : a setting fails exactly if something is wrong with it.
* `Configuration.load_blames` : **which line is blamed, and when the message names it.**
-/

namespace MacroConstants

open Settings

namespace Settings

/-- The line on which a text that fails is blamed. -/
inductive Blamed [PatternEngine] (text : Bytes) : ℕ → Prop
  | unread {number : ℕ} {fault : SettingFault} : FirstUnread text number fault →
      Blamed text number
  | unfit {s : Setting} : FirstUnfit text s → Blamed text s.line

/-- How a message names a line of a text, before it says what is wrong. -/
def place (source : Bytes) (line : ℕ) : Bytes :=
  source ++ bytes ":" ++ Numeral.decimal line ++ bytes ": "

/-- Whether a key takes a list.  The others take a string. -/
def Key.takesList : Key → Bool
  | headers | cc | ppflags | cflags | extraCflags => true
  | lang | filter | verbose => false

theorem Key.fullName_name_inj {k k' : Key} (h : fullName k.name = fullName k'.name) : k = k' :=
  Option.some.inj ((ofFullName?_eq_some_iff.2 rfl).symm.trans (ofFullName?_eq_some_iff.2 h))

end Settings

namespace Setting

/-- What is wrong with a setting that cannot be applied: its key is not known, or takes a value of
the other form, or takes strings only that say something.  What is wrong with a pattern is for the
engine to say. -/
inductive Wrong [PatternEngine] (source : Bytes) (s : Setting) : Fault → Prop
  | key : (∀ k : Key, s.key ≠ fullName k.name) →
      Wrong source s (.setting source s.line (.unknownKey s.key))
  | notList {k : Key} {text : Bytes} : s.key = fullName k.name → k.takesList = true →
      s.value = .scalar text → Wrong source s (.setting source s.line (.listExpected s.key))
  | notScalar {k : Key} {items : List Bytes} : s.key = fullName k.name → k.takesList = false →
      s.value = .list items → Wrong source s (.setting source s.line (.scalarExpected s.key))
  | flag {text : Bytes} : s.key = fullName Key.verbose.name → s.value = .scalar text →
      text ≠ bytes "true" → text ≠ bytes "false" →
      Wrong source s (.setting source s.line .notBoolean)
  | language {text : Bytes} : s.key = fullName Key.lang.name → s.value = .scalar text →
      (∀ l : Language, l.name ≠ text) → Wrong source s (.language text)
  | pattern {text reason : Bytes} : s.key = fullName Key.filter.name → s.value = .scalar text →
      PatternEngine.compile text = .error reason → Wrong source s (.filter text reason)

/-- A string is given as a language or as a pattern.  What is wrong with it is said without its
place. -/
def Unplaced (s : Setting) : Prop :=
  (s.key = fullName Key.lang.name ∨ s.key = fullName Key.filter.name) ∧
    ∃ text, s.value = .scalar text

end Setting

namespace Configuration

variable [PatternEngine] {c c' : Configuration} {source text : Bytes} {s : Setting} {fault : Fault}
  {k : Key}

/-! ### What is wrong with a setting -/

section Values

variable {items : List Bytes}

theorem assign_of_unknown (h : ∀ k : Key, s.key ≠ fullName k.name) :
    c.assign source s = .error (.setting source s.line (.unknownKey s.key)) := by
  have hkey : Key.ofFullName? s.key = none :=
    Option.eq_none_iff_forall_ne_some.2 fun k hk => h k (Key.ofFullName?_eq_some_iff.1 hk)
  simp only [assign, hkey]

/-- A string is refused by the keys that take lists, and by the others if it says nothing. -/
theorem assign_scalar_eq_error_iff (hkey : s.key = fullName k.name)
    (hvalue : s.value = .scalar text) :
    c.assign source s = .error fault ↔
      k.takesList = true ∧ fault = .setting source s.line (.listExpected s.key) ∨
      k = .verbose ∧ (text ≠ bytes "true" ∧ text ≠ bytes "false") ∧
        fault = .setting source s.line .notBoolean ∨
      k = .lang ∧ Language.ofName text = .error fault ∨
      k = .filter ∧ Selector.ofPattern text = .error fault := by
  have hlist : s.items = .error (.listExpected s.key) := by simp only [Setting.items, hvalue]
  have hscalar : s.scalar = .ok text := Setting.scalar_eq_ok_iff.2 hvalue
  rw [← Key.ofFullName?_eq_some_iff] at hkey
  cases k with
  | lang =>
    simp only [assign, hkey, hscalar, map_eq_error_iff]
    simp [Key.takesList, Except.mapError, Except.bind]
  | filter =>
    simp only [assign, hkey, hscalar, map_eq_error_iff]
    simp [Key.takesList, Except.mapError, Except.bind]
  | verbose =>
    have hflag : s.boolean = if text = bytes "true" then .ok true
        else if text = bytes "false" then .ok false else .error .notBoolean := by
      simp only [Setting.boolean, hscalar]
    simp only [assign, hkey, hflag, map_eq_error_iff]
    by_cases htrue : text = bytes "true"
    · simp [Key.takesList, htrue, Except.mapError]
    · by_cases hfalse : text = bytes "false"
      · rw [if_neg htrue, if_pos hfalse]
        simp [Key.takesList, hfalse, Except.mapError]
      · simp [Key.takesList, htrue, hfalse, Except.mapError, eq_comm]
  | _ =>
    simp only [assign, hkey, hlist, map_eq_error_iff]
    simp [Key.takesList, Except.mapError, eq_comm]

/-- A list is refused by the keys that take strings. -/
theorem assign_list_eq_error_iff (hkey : s.key = fullName k.name) (hvalue : s.value = .list items) :
    c.assign source s = .error fault ↔
      k.takesList = false ∧ fault = .setting source s.line (.scalarExpected s.key) := by
  have hlist : s.items = .ok items := Setting.items_eq_ok_iff.2 hvalue
  have hscalar : s.scalar = .error (.scalarExpected s.key) := by
    simp only [Setting.scalar, hvalue]
  have hflag : s.boolean = .error (.scalarExpected s.key) := by
    simp only [Setting.boolean, hscalar]
  rw [← Key.ofFullName?_eq_some_iff] at hkey
  cases k with
  | lang | filter | verbose =>
    simp only [assign, hkey, hscalar, hflag, map_eq_error_iff]
    simp [Key.takesList, Except.mapError, Except.bind, eq_comm]
  | _ =>
    simp only [assign, hkey, hlist, map_eq_error_iff]
    simp [Key.takesList, Except.mapError]

end Values

/-- **A setting fails exactly if something is wrong with it**, whatever it is applied to. -/
theorem assign_eq_error_iff : c.assign source s = .error fault ↔ s.Wrong source fault := by
  by_cases hknown : ∃ k : Key, s.key = fullName k.name
  · obtain ⟨k, hkey⟩ := hknown
    -- names of keys are different, so of the ways to be wrong only those of `k` are left
    have hsame : ∀ {k' : Key}, s.key = fullName k'.name → k' = k := fun h =>
      Key.fullName_name_inj (h.symm.trans hkey)
    cases hvalue : s.value with
    | scalar text =>
      rw [assign_scalar_eq_error_iff hkey hvalue]
      constructor
      · rintro (⟨hlist, rfl⟩ | ⟨rfl, ⟨htrue, hfalse⟩, rfl⟩ | ⟨rfl, h⟩ | ⟨rfl, h⟩)
        · exact .notList hkey hlist hvalue
        · exact .flag hkey hvalue htrue hfalse
        · obtain ⟨hnone, rfl⟩ := Language.ofName_eq_error_iff.1 h
          exact .language hkey hvalue hnone
        · obtain ⟨reason, hrefused, rfl⟩ := Selector.ofPattern_eq_error_iff.1 h
          exact .pattern hkey hvalue hrefused
      · intro h
        cases h with
        | key hunknown => exact absurd hkey (hunknown k)
        | notList hkey' hlist hvalue' =>
          obtain rfl := hsame hkey'
          exact .inl ⟨hlist, rfl⟩
        | notScalar _ _ hvalue' => simp [hvalue] at hvalue'
        | flag hkey' hvalue' htrue hfalse =>
          obtain rfl := Value.scalar.inj (hvalue.symm.trans hvalue')
          exact .inr (.inl ⟨(hsame hkey').symm, ⟨htrue, hfalse⟩, rfl⟩)
        | language hkey' hvalue' hnone =>
          obtain rfl := Value.scalar.inj (hvalue.symm.trans hvalue')
          exact .inr (.inr (.inl ⟨(hsame hkey').symm,
            Language.ofName_eq_error_iff.2 ⟨hnone, rfl⟩⟩))
        | pattern hkey' hvalue' hrefused =>
          obtain rfl := Value.scalar.inj (hvalue.symm.trans hvalue')
          exact .inr (.inr (.inr ⟨(hsame hkey').symm,
            Selector.ofPattern_eq_error_iff.2 ⟨_, hrefused, rfl⟩⟩))
    | list items =>
      rw [assign_list_eq_error_iff hkey hvalue]
      constructor
      · rintro ⟨hscalar, rfl⟩
        exact .notScalar hkey hscalar hvalue
      · intro h
        cases h with
        | key hunknown => exact absurd hkey (hunknown k)
        | notScalar hkey' hscalar _ =>
          obtain rfl := hsame hkey'
          exact ⟨hscalar, rfl⟩
        | notList _ _ hvalue' | flag _ hvalue' | language _ hvalue' | pattern _ hvalue' =>
          simp [hvalue] at hvalue'
  · have hunknown : ∀ k : Key, s.key ≠ fullName k.name := not_exists.1 hknown
    rw [assign_of_unknown hunknown]
    constructor
    · rintro ⟨⟩
      exact .key hunknown
    · intro h
      cases h with
      | key => rfl
      | notList hkey | notScalar hkey | flag hkey | language hkey | pattern hkey =>
        exact absurd hkey (hunknown _)

end Configuration

/-! ### What is said without its place -/

namespace Setting

variable [PatternEngine] {source : Bytes} {s : Setting} {fault : Fault}

/-- A string that is no language or no pattern is what a message may name instead of a line. -/
theorem Wrong.unplaced_iff (h : s.Wrong source fault) :
    s.Unplaced ↔ ∃ word, s.value = .scalar word ∧
      (fault = .language word ∨ ∃ reason, fault = .filter word reason) := by
  constructor
  · rintro ⟨hkey, word, hvalue⟩
    cases h with
    | key hunknown => rcases hkey with hkey | hkey <;> exact absurd hkey (hunknown _)
    | notList hkey' hlist _ =>
      rcases hkey with hkey | hkey <;>
      · obtain rfl := Key.fullName_name_inj (hkey'.symm.trans hkey)
        cases hlist
    | notScalar _ _ hvalue' => simp [hvalue] at hvalue'
    | flag hkey' =>
      rcases hkey with hkey | hkey <;> cases Key.fullName_name_inj (hkey'.symm.trans hkey)
    | language _ hvalue' => exact ⟨_, hvalue', .inl rfl⟩
    | pattern _ hvalue' => exact ⟨_, hvalue', .inr ⟨_, rfl⟩⟩
  · rintro ⟨word, hvalue, hfault⟩
    cases h with
    | language hkey => exact ⟨.inl hkey, word, hvalue⟩
    | pattern hkey => exact ⟨.inr hkey, word, hvalue⟩
    | _ => simp at hfault

/-- Everything else that is wrong with a setting is told with its line. -/
theorem Wrong.place_isPrefix (h : s.Wrong source fault) (hplaced : ¬ s.Unplaced) :
    place source s.line <+: fault.message := by
  cases h with
  | language hkey hvalue => exact absurd ⟨.inl hkey, _, hvalue⟩ hplaced
  | pattern hkey hvalue => exact absurd ⟨.inr hkey, _, hvalue⟩ hplaced
  | _ => exact List.prefix_append _ _

end Setting

/-! ### The line that is blamed -/

namespace Settings

variable [PatternEngine] {text : Bytes} {s s' : Setting} {number number' : ℕ} {fault : SettingFault}

theorem FirstUnread.not_firstUnfit (h : FirstUnread text number fault) : ¬ FirstUnfit text s := by
  intro hunfit
  obtain ⟨earlier, later, hread, -⟩ := hunfit.read
  rw [firstUnread_iff.1 h] at hread
  cases hread

theorem FirstUnfit.unique (h : FirstUnfit text s) (h' : FirstUnfit text s') : s = s' := by
  obtain ⟨earlier, later, hread, hfit⟩ := h.read
  obtain ⟨earlier', later', hread', hfit'⟩ := h'.read
  have heq : earlier ++ s :: later = earlier' ++ s' :: later' :=
    Except.ok.inj (hread.symm.trans hread')
  -- neither of the two stands before the other
  rcases List.append_eq_append_iff.1 heq with ⟨mid, rfl, hmid⟩ | ⟨mid, rfl, hmid⟩
  · cases mid with
    | nil => exact (List.cons.inj hmid).1
    | cons x mid =>
      obtain ⟨rfl, -⟩ := List.cons.inj hmid
      exact absurd (hfit' s (by simp)) h.unfit
  · cases mid with
    | nil => exact (List.cons.inj hmid).1.symm
    | cons x mid =>
      obtain ⟨rfl, -⟩ := List.cons.inj hmid
      exact absurd (hfit s' (by simp)) h'.unfit

theorem Blamed.unique (h : Blamed text number) (h' : Blamed text number') : number = number' := by
  cases h with
  | unread h =>
    cases h' with
    | unread h' =>
      have heq := (firstUnread_iff.1 h).symm.trans (firstUnread_iff.1 h')
      exact (Prod.mk.inj (Except.error.inj heq)).1
    | unfit h' => exact absurd h' h.not_firstUnfit
  | unfit h =>
    cases h' with
    | unread h' => exact absurd h h'.not_firstUnfit
    | unfit h' => rw [h.unique h']

/-- Lines are counted from one, blank lines and comments included. -/
theorem Blamed.le_length (h : Blamed text number) : 1 ≤ number ∧ number ≤ text.lines.length := by
  cases h with
  | unread h =>
    obtain ⟨before, line, after, hlines, rfl, -⟩ :=
      exists_line_of_readLines_error (firstUnread_iff.1 h)
    rw [hlines, List.length_append, List.length_cons]
    omega
  | unfit h =>
    obtain ⟨earlier, later, hread, -⟩ := h.read
    obtain ⟨before, line, after, hlines, hnumber, -⟩ := exists_line_of_readLines hread
    rw [hnumber, hlines, List.length_append, List.length_cons]
    omega

end Settings

namespace Configuration

section Loaded

variable [PatternEngine] {c c' : Configuration} {source text : Bytes} {s : Setting} {fault : Fault}
  {number : ℕ}

theorem wrong_of_firstUnfit (hs : FirstUnfit text s)
    (h : c.load source text = (c', some fault)) : s.Wrong source fault := by
  obtain ⟨c₁, f, -, hfault, hload⟩ := load_of_firstUnfit hs source c
  rw [h] at hload
  obtain ⟨-, rfl⟩ : c' = c₁ ∧ fault = f := by simpa using hload
  exact assign_eq_error_iff.1 hfault

theorem blamed_iff :
    (∃ number, Blamed text number) ↔ ∃ c' fault, c.load source text = (c', some fault) := by
  constructor
  · rintro ⟨number, h | h⟩
    · exact ⟨c, _, by rw [load, firstUnread_iff.1 h]⟩
    · obtain ⟨c', fault, -, -, hload⟩ := load_of_firstUnfit h source c
      exact ⟨c', fault, hload⟩
  · rintro ⟨c', fault, h⟩
    rcases firstUnread_or_firstUnfit h with ⟨number, f, hunread⟩ | ⟨s, hunfit⟩
    · exact ⟨number, .unread hunread⟩
    · exact ⟨s.line, .unfit hunfit⟩

theorem place_isPrefix (h : c.load source text = (c', some fault)) (hblamed : Blamed text number)
    (hplaced : ∀ s, FirstUnfit text s → ¬ s.Unplaced) :
    place source number <+: fault.message := by
  cases hblamed with
  | unread hunread =>
    rw [load, firstUnread_iff.1 hunread] at h
    obtain ⟨-, rfl⟩ : c = c' ∧ _ = fault := by simpa using h
    exact List.prefix_append _ _
  | unfit hunfit => exact (wrong_of_firstUnfit hunfit h).place_isPrefix (hplaced _ hunfit)

/-- **Which line is blamed, and when the message names it.**  A text fails exactly if one of its
lines is to blame, and this line is the only one.  The message starts with its place, unless the
first setting that cannot be applied gives a string as a language or as a pattern; then the fault
is just this string, with what the engine says of a pattern, the same whatever the text is called
and wherever it stands. -/
theorem load_blames (source text : Bytes) (c : Configuration) :
    ((∃ number, Blamed text number) ↔ ∃ c' fault, c.load source text = (c', some fault)) ∧
    (∀ number number', Blamed text number → Blamed text number' → number = number') ∧
    ∀ c' fault number, c.load source text = (c', some fault) → Blamed text number →
      (1 ≤ number ∧ number ≤ text.lines.length) ∧
      ((∀ s, FirstUnfit text s → ¬ s.Unplaced) → place source number <+: fault.message) ∧
      ∀ s, FirstUnfit text s → s.Wrong source fault ∧
        (s.Unplaced ↔ ∃ word, s.value = .scalar word ∧
          (fault = .language word ∨ ∃ reason, fault = .filter word reason)) := by
  refine ⟨blamed_iff, fun _ _ => Blamed.unique, fun c' fault number h hblamed => ?_⟩
  refine ⟨hblamed.le_length, place_isPrefix h hblamed, fun s hs => ?_⟩
  have hwrong := wrong_of_firstUnfit hs h
  exact ⟨hwrong, hwrong.unplaced_iff⟩

end Loaded

/-- A language that is not known, on the second line. -/
def adaText : Bytes := bytes "[discovery]\nlang = \"ada\"\n"

/-- The line is to blame, and no line is named. -/
theorem load_blames_no_line :
    letI := PatternEngine.literal
    Blamed adaText 2 ∧
      ∃ fault, ({} : Configuration).load (bytes "<string>") adaText = ({}, some fault) ∧
        ∀ number, ¬ place (bytes "<string>") number <+: fault.message := by
  let _ := PatternEngine.literal
  have hassign : ({} : Configuration).assign [] ⟨fullName Key.lang.name, .scalar (bytes "ada"), 2⟩
      = .error (.language (bytes "ada")) := rfl
  have hunfit : FirstUnfit adaText ⟨fullName Key.lang.name, .scalar (bytes "ada"), 2⟩ :=
    ⟨⟨[], [], rfl, List.forall_mem_nil _⟩, not_fits_iff.2 ⟨_, hassign⟩,
      bytes "lang = \"ada\"", rfl, rfl⟩
  refine ⟨.unfit hunfit, .language (bytes "ada"), rfl, ?_⟩
  rintro number ⟨rest, h⟩
  have hhead : (place (bytes "<string>") number ++ rest).head? = some (ascii '<') := rfl
  rw [h] at hhead
  exact absurd hhead (by decide)

end Configuration

end MacroConstants
