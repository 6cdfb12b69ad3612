import MacroConstants.CommandLine.Run
import MacroConstants.Proofs.Settings.Grammar

/-!
# How a command line is written

An option has one or two dashes before its name.  Its value follows an equals sign, is the next
argument, or follows the name directly where that is allowed; options and headers mix freely.

* `CommandLine.Writes` : how an option is written after its dashes.
* `CommandLine.Spells` : what arguments say, one after the other.
* `CommandLine.occurrences_eq_ok_iff` : this is what is read.
* `CommandLine.Interleaved` : command lines that say the same of each kind, in the same order.
* `Options.ofOccurrences_congr` : such command lines amount to the same options.
-/

namespace MacroConstants

namespace CommandLine

variable {args : List Bytes} {os os' : List Occurrence} {argument text value d : Bytes}
  {s : Spelling} {f : Flag} {k : Key}

/-! ### One option -/

/-- A flag as it is written after its dashes. -/
def Flag.name : Flag → Bytes
  | resolve => bytes "resolve"
  | verbose => bytes "v"

/-- An option as it is written after its dashes.  A value that follows the name directly is not
empty and does not start with an equals sign, which would stand between the two. -/
inductive Writes : Bytes → Spelling → Prop
  | flag (f : Flag) : Writes f.name (.flag f)
  | equals (k : Key) (value : Bytes) : Writes (k.name ++ ascii '=' :: value) (.complete k value)
  | attached {k : Key} {value : Bytes} : k.attached = true → value ≠ [] →
      value.head? ≠ some (ascii '=') → Writes (k.name ++ value) (.complete k value)
  | bare (k : Key) : Writes k.name (.open k)

theorem Key.name_clean (k : Key) : ascii '=' ∉ k.name ∧ ∃ b rest, k.name = b :: rest ∧
    b ≠ ascii '-' := by
  cases k <;> exact ⟨by decide, _, _, rfl, by decide⟩

theorem Key.ofName?_eq_some_iff : Key.ofName? text = some k ↔ text = k.name := by
  constructor
  · intro h
    have hfound := List.find?_some h
    exact (beq_iff_eq.1 hfound).symm
  · rintro rfl
    cases k <;> decide

theorem Flag.ofName?_eq_some_iff : Flag.ofName? text = some f ↔ text = f.name := by
  unfold Flag.ofName?
  constructor
  · intro h
    split at h
    · rename_i hresolve
      obtain rfl := Option.some.inj h
      exact hresolve
    · split at h
      · rename_i hverbose
        obtain rfl := Option.some.inj h
        exact hverbose
      · cases h
  · rintro rfl
    cases f <;> decide

/-- No option and no flag starts with the letter of one whose value may follow directly. -/
theorem Key.not_name_append (hk : k.attached = true) (hvalue : value ≠ []) :
    Key.ofName? (k.name ++ value) = none ∧ Flag.ofName? (k.name ++ value) = none := by
  obtain ⟨b, rest, rfl⟩ := List.exists_cons_of_ne_nil hvalue
  constructor
  · rw [Option.eq_none_iff_forall_ne_some]
    intro k' hk'
    have hname := Key.ofName?_eq_some_iff.1 hk'
    cases k <;> cases hk
    all_goals cases k' <;> cases hname
  · rw [Option.eq_none_iff_forall_ne_some]
    intro f hf
    have hname := Flag.ofName?_eq_some_iff.1 hf
    cases k <;> cases hk
    all_goals cases f <;> cases hname

/-- The option whose value follows directly, as it is looked for. -/
theorem findSome?_attached :
    ((Key.all.filter Key.attached).findSome? fun k =>
      (k.name.isPrefixOf? text).map fun value => .complete k value) = some s ↔
    ∃ k value, k.attached = true ∧ text = k.name ++ value ∧ s = .complete k value := by
  constructor
  · intro h
    obtain ⟨k, hk, hfound⟩ := List.exists_of_findSome?_eq_some h
    obtain ⟨value, hprefix, rfl⟩ := Option.map_eq_some_iff.1 hfound
    rw [List.isPrefixOf?_eq_some_iff_append_eq] at hprefix
    exact ⟨k, value, (List.mem_filter.1 hk).2, hprefix.symm, rfl⟩
  · rintro ⟨k, value, hk, rfl, rfl⟩
    cases k <;> cases hk <;> rfl

/-- The name before an equals sign, and the value after it. -/
theorem cut_name (k : Key) (value : Bytes) :
    (k.name ++ ascii '=' :: value).takeWhile (· != ascii '=') = k.name ∧
      (k.name ++ ascii '=' :: value).dropWhile (· != ascii '=') = ascii '=' :: value :=
  Settings.cut_iff.2 ⟨rfl, k.name_clean.1⟩

theorem takeWhile_name_append (k : Key) (value : Bytes) :
    (k.name ++ value).takeWhile (· != ascii '=') =
      k.name ++ value.takeWhile (· != ascii '=') := by
  refine List.takeWhile_append_of_pos fun b hb => ?_
  rw [bne_iff_ne]
  rintro rfl
  exact k.name_clean.1 hb

theorem spelling?_of_writes (h : Writes text s) : spelling? text = some s := by
  unfold spelling?
  dsimp only
  cases h with
  | flag f => cases f <;> decide
  | equals k value =>
    obtain ⟨hname, hvalue⟩ := cut_name k value
    rw [hname, hvalue, Key.ofName?_eq_some_iff.2 rfl]
  | attached hk hne hhead =>
    rename_i k value
    -- the value reaches into the name, which is none for that
    have hinside : value.takeWhile (· != ascii '=') ≠ [] := by
      obtain ⟨b, rest, rfl⟩ := List.exists_cons_of_ne_nil hne
      have hb : b ≠ ascii '=' := fun h => hhead (congrArg some h)
      rw [List.takeWhile_cons_of_pos (by simpa using hb)]
      exact List.cons_ne_nil _ _
    rw [takeWhile_name_append, (Key.not_name_append hk hinside).1]
    dsimp only
    rw [(Key.not_name_append hk hne).2]
    exact findSome?_attached.2 ⟨k, value, hk, rfl, rfl⟩
  | bare k => cases k <;> decide

theorem writes_of_spelling? (h : spelling? text = some s) : Writes text s := by
  unfold spelling? at h
  dsimp only at h
  cases hname : Key.ofName? (text.takeWhile (· != ascii '=')) with
  | some k =>
    rw [hname] at h
    have htake := Key.ofName?_eq_some_iff.1 hname
    cases hdrop : text.dropWhile (· != ascii '=') with
    | nil =>
      rw [hdrop] at h
      obtain rfl := Option.some.inj h
      have hwhole := List.takeWhile_append_dropWhile (p := (· != ascii '=')) (l := text)
      rw [htake, hdrop, List.append_nil] at hwhole
      rw [← hwhole]
      exact .bare k
    | cons b value =>
      rw [hdrop] at h
      obtain rfl := Option.some.inj h
      have hb : (b != ascii '=') = false := Bytes.head?_dropWhile _ text b (by rw [hdrop]; rfl)
      obtain rfl : b = ascii '=' := by simpa using hb
      obtain ⟨hcut, -⟩ := Settings.cut_iff.1 ⟨htake, hdrop⟩
      rw [hcut]
      exact .equals k value
  | none =>
    rw [hname] at h
    dsimp only at h
    cases hflag : Flag.ofName? text with
    | some f =>
      rw [hflag] at h
      obtain rfl := Option.some.inj h
      rw [Flag.ofName?_eq_some_iff.1 hflag]
      exact .flag f
    | none =>
      rw [hflag] at h
      obtain ⟨k, value, hk, rfl, rfl⟩ := findSome?_attached.1 h
      -- were the value missing or behind an equals sign, there would be a name
      rw [takeWhile_name_append] at hname
      refine .attached hk ?_ ?_
      · rintro rfl
        rw [List.takeWhile_nil, List.append_nil, Key.ofName?_eq_some_iff.2 rfl] at hname
        cases hname
      · intro hhead
        obtain ⟨rest, rfl⟩ := List.head?_eq_some_iff.1 hhead
        rw [List.takeWhile_cons_of_neg (by simp), List.append_nil,
          Key.ofName?_eq_some_iff.2 rfl] at hname
        cases hname

/-- An option is read exactly as it is written. -/
theorem spelling?_eq_some_iff : spelling? text = some s ↔ Writes text s :=
  ⟨writes_of_spelling?, spelling?_of_writes⟩

/-- An option starts with a letter. -/
theorem Writes.exists_cons (h : Writes text s) : ∃ b rest, text = b :: rest ∧ b ≠ ascii '-' := by
  cases h with
  | flag f => cases f <;> exact ⟨_, _, rfl, by decide⟩
  | equals k value =>
    obtain ⟨-, b, rest, hname, hb⟩ := k.name_clean
    exact ⟨b, rest ++ ascii '=' :: value, by rw [hname]; rfl, hb⟩
  | attached hk hne hhead =>
    rename_i k value
    obtain ⟨-, b, rest, hname, hb⟩ := k.name_clean
    exact ⟨b, rest ++ value, by rw [hname]; rfl, hb⟩
  | bare k => exact k.name_clean.2

/-! ### One argument -/

/-- One or two dashes, which are the same. -/
def Dashes (d : Bytes) : Prop := d = bytes "-" ∨ d = bytes "--"

/-- No option: the argument does not start with a dash, or is nothing else. -/
def Positional (argument : Bytes) : Prop :=
  argument.head? ≠ some (ascii '-') ∨ argument = bytes "-"

theorem afterDashes?_eq_none_iff : afterDashes? argument = none ↔ Positional argument := by
  have hdash : bytes "-" = [ascii '-'] := rfl
  unfold afterDashes? Positional
  rw [hdash]
  split
  · rename_i b c rest
    by_cases hb : b = ascii '-'
    · simp [hb]
    · simp [hb]
  · rename_i hshort
    refine iff_of_true rfl ?_
    rcases argument with _ | ⟨b, _ | ⟨c, rest⟩⟩
    · simp
    · by_cases hb : b = ascii '-'
      · exact .inr (by rw [hb])
      · exact .inl fun h => hb (Option.some.inj h)
    · exact absurd rfl (hshort b c rest)

theorem Positional.ne (h : Positional argument) : argument ≠ bytes "--" := by
  rintro rfl
  revert h
  unfold Positional
  decide

/-- The dashes before an option are taken off, and it is not mistaken for two dashes alone. -/
theorem afterDashes?_append (hd : Dashes d) (h : Writes text s) :
    afterDashes? (d ++ text) = some text ∧ d ++ text ≠ bytes "--" := by
  obtain ⟨b, rest, rfl, hb⟩ := h.exists_cons
  rcases hd with rfl | rfl
  · have hcons : bytes "-" ++ b :: rest = ascii '-' :: b :: rest := rfl
    have hdashes : bytes "--" = [ascii '-', ascii '-'] := rfl
    rw [hcons, hdashes]
    exact ⟨by simp [afterDashes?, hb], by simp [hb]⟩
  · have hcons : bytes "--" ++ b :: rest = ascii '-' :: ascii '-' :: b :: rest := rfl
    have hdashes : bytes "--" = [ascii '-', ascii '-'] := rfl
    rw [hcons, hdashes]
    exact ⟨by simp [afterDashes?], by simp⟩

theorem exists_dashes (h : afterDashes? argument = some text) :
    ∃ d, Dashes d ∧ argument = d ++ text := by
  unfold afterDashes? at h
  split at h
  · rename_i b c rest
    split at h
    · rename_i hb
      split at h
      · rename_i hc
        obtain rfl := Option.some.inj h
        exact ⟨bytes "--", .inr rfl, by rw [hb, hc]; rfl⟩
      · obtain rfl := Option.some.inj h
        exact ⟨bytes "-", .inl rfl, by rw [hb]; rfl⟩
    · cases h
  · cases h

/-! ### All arguments -/

/-- What arguments say, one after the other. -/
inductive Spells : List Bytes → List Occurrence → Prop
  | nil : Spells [] []
  | header {argument : Bytes} {args : List Bytes} {os : List Occurrence} :
      Positional argument → Spells args os → Spells (argument :: args) (.header argument :: os)
  | flag {d text : Bytes} {f : Flag} {args : List Bytes} {os : List Occurrence} :
      Dashes d → Writes text (.flag f) → Spells args os →
      Spells ((d ++ text) :: args) (.flag f :: os)
  | complete {d text value : Bytes} {k : Key} {args : List Bytes} {os : List Occurrence} :
      Dashes d → Writes text (.complete k value) → Spells args os →
      Spells ((d ++ text) :: args) (.value k value :: os)
  /-- The value is the next argument, whatever it looks like. -/
  | next {d text : Bytes} {k : Key} {args : List Bytes} {os : List Occurrence} (value : Bytes) :
      Dashes d → Writes text (.open k) → Spells args os →
      Spells ((d ++ text) :: value :: args) (.value k value :: os)
  /-- Two dashes make headers of all that follows. -/
  | closed (names : List Bytes) : Spells (bytes "--" :: names) (names.map .header)

/-- An option is read as it is spelled; only an open one takes the next argument as well. -/
theorem occurrences_option (hd : Dashes d) (h : Writes text s) :
    occurrences ((d ++ text) :: args) =
      match s, args with
      | .flag f, args => (occurrences args).map (.flag f :: ·)
      | .complete k value, args => (occurrences args).map (.value k value :: ·)
      | .open k, [] => .error (.missingValue k)
      | .open k, value :: args => (occurrences args).map (.value k value :: ·) := by
  obtain ⟨hafter, hne⟩ := afterDashes?_append hd h
  cases s with
  | «open» k =>
    cases args <;> simp only [occurrences, if_neg hne, hafter, spelling?_eq_some_iff.2 h]
  | _ => simp only [occurrences, if_neg hne, hafter, spelling?_eq_some_iff.2 h]

theorem occurrences_of_spells (h : Spells args os) : occurrences args = .ok os := by
  induction h with
  | nil => rfl
  | header hpositional _ ih =>
    rw [occurrences, if_neg hpositional.ne, afterDashes?_eq_none_iff.2 hpositional, ih]
    rfl
  | flag hd hwrites _ ih
  | complete hd hwrites _ ih
  | next value hd hwrites _ ih =>
    rw [occurrences_option hd hwrites]
    dsimp only
    rw [ih]
    rfl
  | closed names => rw [occurrences, if_pos rfl]

/-- By induction along the reading: each argument, with the next one where that is its value, is
what a constructor says. -/
theorem spells_of_occurrences (h : occurrences args = .ok os) : Spells args os := by
  fun_induction occurrences args generalizing os with
  | case1 =>
    obtain rfl := Except.ok.inj h
    exact .nil
  | case2 names =>
    obtain rfl := Except.ok.inj h
    exact .closed names
  | case3 argument rest hne hafter ih =>
    obtain ⟨os, hrest, rfl⟩ := map_eq_ok_iff.1 h
    exact .header (afterDashes?_eq_none_iff.1 hafter) (ih hrest)
  | case4 => cases h
  | case5 argument rest hne text hafter f hspelling ih =>
    obtain ⟨os, hrest, rfl⟩ := map_eq_ok_iff.1 h
    obtain ⟨d, hd, rfl⟩ := exists_dashes hafter
    exact .flag hd (spelling?_eq_some_iff.1 hspelling) (ih hrest)
  | case6 argument rest hne text hafter k value hspelling ih =>
    obtain ⟨os, hrest, rfl⟩ := map_eq_ok_iff.1 h
    obtain ⟨d, hd, rfl⟩ := exists_dashes hafter
    exact .complete hd (spelling?_eq_some_iff.1 hspelling) (ih hrest)
  | case7 => cases h
  | case8 argument hne text hafter k hspelling value rest ih =>
    obtain ⟨os, hrest, rfl⟩ := map_eq_ok_iff.1 h
    obtain ⟨d, hd, rfl⟩ := exists_dashes hafter
    exact .next value hd (spelling?_eq_some_iff.1 hspelling) (ih hrest)

/-- The arguments are read exactly as they are written. -/
theorem occurrences_eq_ok_iff : occurrences args = .ok os ↔ Spells args os :=
  ⟨spells_of_occurrences, occurrences_of_spells⟩

/-! ### Interleaving -/

/-- The kinds of occurrences: headers, each flag, and each option with a value. -/
inductive Kind where
  | header
  | flag (f : Flag)
  | value (k : Key)
  deriving DecidableEq

/-- The kind of an occurrence. -/
def Occurrence.kind : Occurrence → Kind
  | .header _ => .header
  | .flag f => .flag f
  | .value k _ => .value k

/-- The same occurrences of each kind in the same order: at most occurrences of different kinds
have changed places. -/
def Interleaved (os os' : List Occurrence) : Prop :=
  ∀ kind, os.filter (·.kind = kind) = os'.filter (·.kind = kind)

theorem headersOf_filter (os : List Occurrence) :
    headersOf (os.filter (·.kind = .header)) = headersOf os := by
  unfold headersOf
  rw [List.filterMap_filter]
  congr 1
  funext o
  cases o <;> rfl

theorem valuesOf_filter (k : Key) (os : List Occurrence) :
    valuesOf k (os.filter (·.kind = .value k)) = valuesOf k os := by
  unfold valuesOf
  rw [List.filterMap_filter]
  congr 1
  funext o
  cases o with
  | value k' text => by_cases hk : k' = k <;> simp [Occurrence.kind, hk]
  | _ => rfl

theorem Interleaved.contains (h : Interleaved os os') (f : Flag) :
    os.contains (.flag f) = os'.contains (.flag f) := by
  have hmem : ∀ l : List Occurrence,
      .flag f ∈ l ↔ .flag f ∈ l.filter (·.kind = .flag f) := by
    intro l
    simp [List.mem_filter, Occurrence.kind]
  rw [Bool.eq_iff_iff, List.contains_iff_mem, List.contains_iff_mem, hmem os, hmem os', h]

end CommandLine

open CommandLine

/-- Options look at each kind of occurrence alone. -/
theorem Options.ofOccurrences_congr {os os' : List Occurrence} (h : Interleaved os os') :
    Options.ofOccurrences os = Options.ofOccurrences os' := by
  have hheaders : headersOf os = headersOf os' := by
    rw [← headersOf_filter os, h, headersOf_filter]
  have hvalues : ∀ k, valuesOf k os = valuesOf k os' := by
    intro k
    rw [← valuesOf_filter k os, h, valuesOf_filter]
  unfold Options.ofOccurrences
  simp only [hheaders, hvalues, h.contains]

end MacroConstants
