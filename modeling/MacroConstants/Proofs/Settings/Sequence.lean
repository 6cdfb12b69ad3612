import MacroConstants.Proofs.Settings.Rendered

/-!
# One settings text after another

Texts that are accepted can be put together: what the whole does is what its parts do, one after
the other.  Of all the lines that give a key only the last one counts, so that reading a text again
changes nothing.

* `Settings.Accepted` : a text that is loaded without a fault.
* `Settings.Accounts.append` : what two texts state, with a newline between them.
* `Settings.LastEntry` : the entry on the last line that gives its key.
* `Settings.last_or_unset` : a field has the value of the last entry of its key, or is unchanged.
* `Configuration.load_join` : **two texts together do what they do one after the other**.
-/

namespace MacroConstants

namespace Settings

variable {c c' : Configuration}

/-- The fields of the keys are all there is in a configuration. -/
theorem eq_of_same (h : ∀ k : Key, k.Same c c') : c' = c := by
  have hheaders := h .headers
  have hcc := h .cc
  have hppflags := h .ppflags
  have hcflags := h .cflags
  have hextra := h .extraCflags
  have hlang := h .lang
  have hfilter := h .filter
  have hverbose := h .verbose
  cases c
  cases c'
  simp only [Key.Same] at hheaders hcc hppflags hcflags hextra hlang hfilter hverbose
  subst hheaders hcc hppflags hcflags hextra hlang hfilter hverbose
  rfl

variable [PatternEngine] {opened : Bool} {a b line : Bytes} {lines : List Bytes} {k : Key}
  {e : KeyValue} {statement : Statement} {statements statements' : List Statement}

/-! ### Texts that are put together -/

/-- The text is accepted: it is loaded without a fault, from some source and into some
configuration. -/
def Accepted (text : Bytes) : Prop :=
  ∃ (source : Bytes) (c c' : Configuration), c.load source text = (c', none)

theorem accepted_iff : Accepted a ↔ ∃ statements, Accounts a statements := by
  simp only [Accepted, Configuration.load_eq_none_iff]
  constructor
  · rintro ⟨-, -, -, statements, h, -⟩
    exact ⟨statements, h⟩
  · rintro ⟨statements, h⟩
    exact ⟨[], {}, _, statements, h, rfl⟩

/-- The section may be begun by a header of the first statements or by one of the others. -/
theorem Headed.append (h : Headed opened statements) (h' : Headed opened statements') :
    Headed opened (statements ++ statements') := by
  rcases h with hopened | h
  · exact .inl hopened
  · rcases h' with hopened | h'
    · exact .inl hopened
    · refine .inr fun e he => ?_
      -- the statements before the first header of the whole reach into the second text only if
      -- the first one has no header at all
      rw [List.takeWhile_append] at he
      split at he
      · rename_i hall
        have hself := (List.takeWhile_prefix _).eq_of_length hall
        rcases List.mem_append.1 he with he | he
        · exact h e (by rw [hself]; exact he)
        · exact h' e he
      · exact h e he

theorem Accounts.append (ha : Accounts a statements) (hb : Accounts b statements') :
    Accounts (a ++ ascii '\n' :: b) (statements ++ statements') := by
  refine ⟨?_, ha.headed.append hb.headed⟩
  rw [Bytes.lines, List.splitOn_append_cons_self]
  exact List.rel_append ha.lines hb.lines

theorem applyAll_append (statements statements' : List Statement) (c : Configuration) :
    Statement.applyAll (statements ++ statements') c =
      Statement.applyAll statements' (Statement.applyAll statements c) :=
  List.foldl_append

/-! ### The last line of a key -/

/-- The line gives the key a value. -/
def Gives (line : Bytes) (k : Key) : Prop := ∃ e, States line (.setting e) ∧ e.key = k

/-- The entry stands on a line, and no line after it gives its key. -/
def LastEntry (lines : List Bytes) (e : KeyValue) : Prop :=
  ∃ before line after, lines = before ++ line :: after ∧ States line (.setting e) ∧
    ∀ l ∈ after, ¬ Gives l e.key

theorem LastEntry.cons (h : LastEntry lines e) (line : Bytes) : LastEntry (line :: lines) e := by
  obtain ⟨before, line', after, rfl, hstates, hafter⟩ := h
  exact ⟨line :: before, line', after, rfl, hstates, hafter⟩

/-- A line that gives a key states an entry of this key and nothing else. -/
theorem Gives.exists_eq (h : Gives line k) (hs : States line statement) :
    ∃ e, statement = .setting e ∧ e.key = k := by
  obtain ⟨e, he, rfl⟩ := h
  have hread := readLine_of_states rfl he
  cases statement with
  | blank =>
    rw [readLine_blank_iff.2 hs] at hread
    cases hread
  | header leftover =>
    rw [readLine_header_iff.2 ⟨leftover, hs⟩] at hread
    cases hread
  | setting e' =>
    rw [readLine_of_states rfl hs] at hread
    have hname : fullName e'.key.name = fullName e.key.name := by
      injection hread with hread
      injection hread
    have hkey := Key.ofFullName?_eq_some_iff.2 hname
    rw [Key.ofFullName?_eq_some_iff.2 rfl] at hkey
    exact ⟨e', rfl, Option.some.inj hkey⟩

/-- A statement leaves the fields of the keys alone that its line does not give. -/
theorem same_apply_of_not_gives (hs : States line statement) (h : ¬ Gives line k)
    (c : Configuration) : k.Same c (statement.apply c) := by
  cases statement with
  | setting e =>
    exact Key.same_apply fun hk => h ⟨e, hs, hk.symm⟩
  | _ => exact .refl c k

/-- Statements set a field to the value of the last entry of its key, if there is one, and else
leave it alone.  By induction on the lines: the first line counts only if no other one does. -/
theorem last_or_unset (h : List.Forall₂ States lines statements) (k : Key) :
    (∃ e, e.key = k ∧ LastEntry lines e ∧ ∀ c, e.Holds (Statement.applyAll statements c)) ∨
      (∀ l ∈ lines, ¬ Gives l k) ∧ ∀ c, k.Same c (Statement.applyAll statements c) := by
  induction h with
  | nil => exact .inr ⟨List.forall_mem_nil _, fun c => .refl c k⟩
  | cons hs hall ih =>
    rename_i line statement lines statements
    rcases ih with ⟨e, hkey, hlast, hholds⟩ | ⟨hunset, hsame⟩
    · exact .inl ⟨e, hkey, hlast.cons line, fun c => hholds (statement.apply c)⟩
    · -- no other line gives the key, so it is up to this one
      by_cases hgives : Gives line k
      · obtain ⟨e, rfl, rfl⟩ := hgives.exists_eq hs
        refine .inl ⟨e, rfl, ⟨[], line, lines, rfl, hs, hunset⟩, fun c => ?_⟩
        exact (e.holds_apply c).of_same (hsame (e.apply c))
      · refine .inr ⟨List.forall_mem_cons.2 ⟨hgives, hunset⟩, fun c => ?_⟩
        exact (same_apply_of_not_gives hs hgives c).trans (hsame (statement.apply c))

/-! ### Reading a text again -/

theorem KeyValue.same_of_holds (h : e.Holds c) (h' : e.Holds c') : e.key.Same c c' := by
  cases e <;> exact Eq.trans h' (Eq.symm h)

theorem applyAll_idem (h : List.Forall₂ States lines statements) (c : Configuration) :
    Statement.applyAll statements (Statement.applyAll statements c) =
      Statement.applyAll statements c := by
  refine eq_of_same fun k => ?_
  rcases last_or_unset h k with ⟨e, rfl, -, hholds⟩ | ⟨-, hsame⟩
  · exact KeyValue.same_of_holds (hholds c) (hholds (Statement.applyAll statements c))
  · exact hsame (Statement.applyAll statements c)

end Settings

namespace Configuration

open Settings

/-- **Two settings texts together do what they do one after the other.**  If both are accepted, so
is the first with a newline and the second after it, into any configuration.  Each field then has
the value of the last line that gives its key, or its former value if no line does; and a text that
is read again changes nothing. -/
theorem load_join [PatternEngine] {a b : Bytes} (ha : Accepted a) (hb : Accepted b) (source : Bytes)
    (c : Configuration) :
    ∃ c₁ c₂, c.load source a = (c₁, none) ∧ c₁.load source b = (c₂, none) ∧
      c.load source (a ++ ascii '\n' :: b) = (c₂, none) ∧
      c₁.load source a = (c₁, none) ∧
      ∀ k, (∃ e, e.key = k ∧ LastEntry a.lines e ∧ e.Holds c₁) ∨
        (∀ line ∈ a.lines, ¬ Gives line k) ∧ k.Same c c₁ := by
  obtain ⟨statements, hstates⟩ := accepted_iff.1 ha
  obtain ⟨statements', hstates'⟩ := accepted_iff.1 hb
  refine ⟨_, _, load_eq_none_iff.2 ⟨statements, hstates, rfl⟩,
    load_eq_none_iff.2 ⟨statements', hstates', rfl⟩, ?_, ?_, fun k => ?_⟩
  · exact load_eq_none_iff.2
      ⟨_, hstates.append hstates', (applyAll_append statements statements' c).symm⟩
  · exact load_eq_none_iff.2 ⟨statements, hstates, (applyAll_idem hstates.lines c).symm⟩
  · rcases last_or_unset hstates.lines k with ⟨e, hkey, hlast, hholds⟩ | ⟨hunset, hsame⟩
    · exact .inl ⟨e, hkey, hlast, hholds c⟩
    · exact .inr ⟨hunset, hsame c⟩

/-- A header with two keys below it. -/
def firstText : Bytes := bytes "[discovery]\nheaders = [\"a.h\"]\nlang = \"c++\""

/-- The same section again, with one of the keys and another one. -/
def secondText : Bytes := bytes "[discovery] # again\nverbose = true\nheaders = [\"b.h\"]\n"

/-- Of a key in both texts the second value counts, and each other key has its only value. -/
theorem load_join_overlap :
    letI := PatternEngine.literal
    Accepted firstText ∧ Accepted secondText ∧ ∃ c₁ c₂,
      ({} : Configuration).load [] firstText = (c₁, none) ∧
      c₁.load [] secondText = (c₂, none) ∧
      ({} : Configuration).load [] (firstText ++ ascii '\n' :: secondText) = (c₂, none) ∧
      c₁.headers = [bytes "a.h"] ∧ c₂.headers = [bytes "b.h"] ∧ c₂.language = .cxx ∧
      c₂.verbose = true := by
  let _ := PatternEngine.literal
  have hfirst : Accepted firstText :=
    ⟨[], {}, { headers := [bytes "a.h"], language := .cxx }, rfl⟩
  have hsecond : Accepted secondText :=
    ⟨[], {}, { headers := [bytes "b.h"], verbose := true }, rfl⟩
  obtain ⟨c₁, c₂, h₁, h₂, h, -, -⟩ := load_join hfirst hsecond [] {}
  refine ⟨hfirst, hsecond, c₁, c₂, h₁, h₂, h, ?_⟩
  have hfst : c₁ = { headers := [bytes "a.h"], language := .cxx } := (congrArg Prod.fst h₁).symm
  have hsnd : c₂ = { headers := [bytes "b.h"], language := .cxx, verbose := true } :=
    (congrArg Prod.fst h).symm
  subst hfst hsnd
  exact ⟨rfl, rfl, rfl, rfl⟩

end Configuration

end MacroConstants
