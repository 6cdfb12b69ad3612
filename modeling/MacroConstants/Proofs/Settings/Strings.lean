import MacroConstants.Proofs.Settings.Failure

/-!
# The strings of a settings text

A quoted string is recognised by its first and its last byte, and a list is cut only at commas
outside quotes.  So a value may be accepted in which the quotes do not pair up as they are meant to:
two strings without a comma between them, or a string that nothing closes.  The quotes that are too
many then stay in the strings that are read, and nowhere else: a string without a double quote is
always one that was written as it should be.

* `Settings.Proper` : values in which every double quote opens or closes a string.
* `Settings.proper_iff` : these are the values that are read as strings without double quotes.
* `Settings.Items.count` : the quotes in a list open and close its strings, or stay in them.
* `Setting.WrittenAs` : a value as it stands on its line.
* `Settings.read_strings` : **a string that is read has a double quote exactly if its value is not
  properly written**.
-/

namespace MacroConstants

namespace Settings

open Bytes

variable {s w body text key : Bytes} {xs items : List Bytes} {value : Value}

/-! ### Values as they should be written -/

/-- The inside of a list as it should be: between commas there is nothing but white space, or one
quoted string that has no double quote in it. -/
inductive ProperItems : Bytes → List Bytes → Prop
  | last {s : Bytes} {xs : List Bytes} : Element s xs → (∀ text ∈ xs, ascii '"' ∉ text) →
      ProperItems s xs
  | more {s rest : Bytes} {xs ys : List Bytes} : Element s xs → (∀ text ∈ xs, ascii '"' ∉ text) →
      ProperItems rest ys → ProperItems (s ++ ascii ',' :: rest) (xs ++ ys)

/-- A value as it should be: every double quote opens or closes a string. -/
inductive Proper : Bytes → Value → Prop
  | quoted {text : Bytes} : ascii '"' ∉ text → Proper (quote text) (.scalar text)
  | bare {text : Bytes} : Bare isLayout text → text.head? ≠ some (ascii '[') →
      ascii '"' ∉ text → Proper text (.scalar text)
  | list {body : Bytes} {items : List Bytes} : ProperItems body items →
      Proper (ascii '[' :: (body ++ [ascii ']'])) (.list items)

/-- A piece of a list whose string has no quote in it has no comma outside quotes. -/
theorem Element.sheltered (h : Element s xs) (hxs : ∀ text ∈ xs, ascii '"' ∉ text) :
    Sheltered (ascii ',') s := by
  cases h with
  | blank hs => exact sheltered_of_notMem (hs.notMem rfl) (hs.notMem rfl)
  | quoted hlead htail =>
    exact (sheltered_piece hlead (hxs _ List.mem_cons_self)).append
      (sheltered_of_notMem (htail.notMem rfl) (htail.notMem rfl))

theorem properItems_iff :
    ProperItems body items ↔ Items body items ∧ ∀ text ∈ items, ascii '"' ∉ text := by
  constructor
  · intro h
    induction h with
    | last he hxs => exact ⟨.last (he.sheltered hxs) he, hxs⟩
    | more he hxs _ ih =>
      exact ⟨.more (he.sheltered hxs) he ih.1, List.forall_mem_append.2 ⟨hxs, ih.2⟩⟩
  · rintro ⟨h, hitems⟩
    induction h with
    | last _ he => exact .last he hitems
    | more _ he _ ih =>
      obtain ⟨hxs, hys⟩ := List.forall_mem_append.1 hitems
      exact .more he hxs (ih hys)

/-- A value is properly written exactly if it is read and none of its strings has a quote. -/
theorem proper_iff :
    Proper w value ↔ Writes w value ∧ ∀ text ∈ value.strings, ascii '"' ∉ text := by
  constructor
  · intro h
    cases h with
    | quoted htext => exact ⟨.quoted, List.forall_mem_singleton.2 htext⟩
    | bare hbare hhead htext =>
      refine ⟨.bare hbare hhead ?_, List.forall_mem_singleton.2 htext⟩
      rintro t rfl
      exact htext List.mem_cons_self
    | list h =>
      obtain ⟨hread, hitems⟩ := properItems_iff.1 h
      exact ⟨.list hread, hitems⟩
  · rintro ⟨h, hstrings⟩
    cases h with
    | quoted => exact .quoted (hstrings _ List.mem_cons_self)
    | bare hbare hhead => exact .bare hbare hhead (hstrings _ List.mem_cons_self)
    | list h => exact .list (properItems_iff.2 ⟨h, hstrings⟩)

/-! ### Where the quotes of a list go -/

/-- The number of double quotes that stay in strings. -/
def kept (items : List Bytes) : ℕ := items.flatten.count (ascii '"')

theorem kept_append (xs ys : List Bytes) : kept (xs ++ ys) = kept xs + kept ys := by
  rw [kept, List.flatten_append, List.count_append, kept, kept]

theorem count_quote (text : Bytes) :
    (quote text).count (ascii '"') = text.count (ascii '"') + 2 := by
  simp [quote, List.count_append]

/-- A quote in a piece of a list is the first or the last of its string, or stays in it. -/
theorem Element.count (h : Element s xs) : s.count (ascii '"') = 2 * xs.length + kept xs := by
  cases h with
  | blank hs => exact List.count_eq_zero_of_not_mem (hs.notMem rfl)
  | quoted hlead htail =>
    have hlead' := List.count_eq_zero_of_not_mem (hlead.notMem (c := ascii '"') rfl)
    have htail' := List.count_eq_zero_of_not_mem (htail.notMem (c := ascii '"') rfl)
    simp only [List.count_append, hlead', htail', count_quote, kept,
      List.flatten_singleton, List.length_singleton]
    omega

/-- A list has two quotes for each of its strings, and those that stay in them. -/
theorem Items.count (h : Items body items) :
    body.count (ascii '"') = 2 * items.length + kept items := by
  induction h with
  | last _ he => exact he.count
  | more _ he _ ih =>
    rw [List.count_append, List.count_cons_of_ne (by decide), he.count, ih, kept_append,
      List.length_append]
    omega

/-- The quotes that stay in a string of a list are closed: they come in pairs. -/
theorem Items.endsQuoted (h : Items body items) : ∀ text ∈ items, endsQuoted text = false := by
  -- a comma is cut at only where quotes are closed, and the outer two of a piece are a pair
  have hpiece : ∀ {s xs}, Sheltered (ascii ',') s → Element s xs →
      ∀ text ∈ xs, Settings.endsQuoted text = false := by
    rintro s xs ⟨-, hclosed⟩ (hs | ⟨hlead, htail⟩) text ht
    · cases ht
    · obtain rfl := List.mem_singleton.1 ht
      rw [endsQuoted_append, endsQuoted_append, endsQuoted_of_notMem (hlead.notMem rfl),
        endsQuoted_of_notMem (htail.notMem rfl), quote, endsQuoted_cons, endsQuoted_append,
        endsQuoted_singleton] at hclosed
      simpa using hclosed
  induction h with
  | last hs he => exact hpiece hs he
  | more hs he _ ih => exact List.forall_mem_append.2 ⟨hpiece hs he, ih⟩

end Settings

/-! ### Texts -/

open Settings

/-- The value of a setting as it stands on its line, after the first equals sign. -/
def Setting.WrittenAs (text : Bytes) (s : Setting) (w : Bytes) : Prop :=
  ∃ line content key before after, text.lines[s.line - 1]? = some line ∧
    Settings.Content line content ∧
    content = key ++ before ++ ascii '=' :: (after ++ w) ∧ s.key = fullName key ∧
    ascii '=' ∉ key ∧ Layout before ∧ Layout after ∧ Bytes.Bare Bytes.isLayout w

theorem Setting.WrittenAs.unique {text w w' : Bytes} {s : Setting} (h : s.WrittenAs text w)
    (h' : s.WrittenAs text w') : w = w' := by
  -- the key has no equals sign, so the value starts after the first of the line
  have hvalue : ∀ {v line}, s.WrittenAs text v → text.lines[s.line - 1]? = some line →
      trimmed ((trimmed (stripComment false line)).dropWhile (· != ascii '=')).tail = v := by
    rintro v line ⟨_, content, key, before, after, hline', hcontent, rfl, -, hkey, hbefore, hafter,
      hbare⟩ hline
    obtain rfl := Option.some.inj (hline'.symm.trans hline)
    have hcut : ascii '=' ∉ key ++ before := by
      simp only [List.mem_append, not_or]
      exact ⟨hkey, hbefore.notMem rfl⟩
    rw [content_iff.1 hcontent, (cut_iff.2 ⟨rfl, hcut⟩).2, List.tail_cons]
    exact trimmed_eq_iff.2 ⟨hbare, after, [], by simp, hafter, layout_nil⟩
  obtain ⟨line, -, -, -, -, hline, -⟩ := id h
  exact (hvalue h hline).symm.trans (hvalue h' hline)

namespace Settings

variable {text : Bytes} {settings : List Setting}

theorem exists_writtenAs (h : Settings.read text = .ok settings) :
    ∀ s ∈ settings, ∃ w, s.WrittenAs text w ∧ Writes w s.value := by
  rintro ⟨key, value, number⟩ hs
  obtain ⟨earlier, later, rfl⟩ := List.append_of_mem hs
  obtain ⟨line, hline, hread⟩ := exists_line_of_read h
  obtain ⟨content, hcontent, hsays⟩ := readLine_eq_ok_iff.1 hread
  cases hsays with
  | setting _ _ _ hkey hassigns =>
    obtain ⟨before, after, w, hsplit, hbefore, hafter, hwrites⟩ := hassigns
    exact ⟨w, ⟨line, content, _, before, after, hline, hcontent, hsplit, rfl, hkey, hbefore,
      hafter, hwrites.isBare⟩, hwrites⟩

/-- The quotes in a list that is read: what the brackets hold. -/
theorem Writes.count {w : Bytes} {items : List Bytes} (h : Writes w (.list items)) :
    w.count (ascii '"') = 2 * items.length + kept items ∧
      ∀ text ∈ items, endsQuoted text = false := by
  cases h with
  | list h =>
    refine ⟨?_, h.endsQuoted⟩
    rw [List.count_cons_of_ne (by decide), List.count_append, h.count,
      List.count_eq_zero_of_not_mem (l := [ascii ']']) (by decide), Nat.add_zero]

/-- **Which strings are read.**  Every setting of a text that is read has a value on its line, and
its strings are without double quotes exactly if this value is properly written: a list is a
sequence of quoted strings separated by commas, and every quote opens or closes a string.  The
others are read as well, with the quotes that are too many inside the strings: the list has two for
each string, and an even number in each of them. -/
theorem read_strings (h : Settings.read text = .ok settings) :
    ∀ s ∈ settings, ∃ w, s.WrittenAs text w ∧ (∀ w', s.WrittenAs text w' → w' = w) ∧
      Writes w s.value ∧
      ((∀ string ∈ s.value.strings, ascii '"' ∉ string) ↔ Proper w s.value) ∧
      ∀ items, s.value = .list items →
        w.count (ascii '"') = 2 * items.length + kept items ∧
        ∀ string ∈ items, endsQuoted string = false := by
  intro s hs
  obtain ⟨w, hw, hwrites⟩ := exists_writtenAs h s hs
  refine ⟨w, hw, fun w' hw' => hw'.unique hw, hwrites, ?_, fun items hitems => ?_⟩
  · rw [proper_iff]
    exact (and_iff_right hwrites).symm
  · rw [hitems] at hwrites
    exact hwrites.count

/-- Two strings without a comma, a bracket after a string, and a string that nothing closes. -/
def fusedText : Bytes :=
  bytes "[discovery]\nheaders = [\"a\" \"b\"]\ncflags = [\"a\"] \"b\"]\nfilter = \"x\n"

/-- What is read of them. -/
def fusedSettings : List Setting :=
  [⟨fullName Key.headers.name, .list [bytes "a\" \"b"], 2⟩,
    ⟨fullName Key.cflags.name, .list [bytes "a\"] \"b"], 3⟩,
    ⟨fullName Key.filter.name, .scalar (bytes "\"x"), 4⟩]

theorem read_strings_fused :
    Settings.read fusedText = .ok fusedSettings ∧
      ∀ s ∈ fusedSettings, ∃ w, s.WrittenAs fusedText w ∧ Writes w s.value ∧
        ¬ Proper w s.value := by
  have hread : Settings.read fusedText = .ok fusedSettings := rfl
  refine ⟨hread, fun s hs => ?_⟩
  obtain ⟨w, hw, -, hwrites, hproper, -⟩ := read_strings hread s hs
  refine ⟨w, hw, hwrites, fun h => ?_⟩
  have hquote : ∀ s ∈ fusedSettings, ∃ string ∈ s.value.strings, ascii '"' ∈ string := by decide
  obtain ⟨string, hstring, hmem⟩ := hquote s hs
  exact hproper.2 h string hstring hmem

/-- All of them are read, and none without the quotes inside it. -/
theorem read_keeps_quotes :
    Settings.read fusedText = .ok fusedSettings ∧
      ∀ s ∈ fusedSettings, ∃ string ∈ s.value.strings, ascii '"' ∈ string :=
  ⟨rfl, by decide⟩

end Settings

end MacroConstants
