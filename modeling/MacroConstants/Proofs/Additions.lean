import MacroConstants.Proofs.Catalog
import MacroConstants.Proofs.Discovery
import Mathlib.Data.Finset.Card

/-!
# Additions to a catalog

A catalog can be kept as a list of constants and a table that leads from names to positions, so that
a name is looked up without going through the list.  The table knows exactly the names of the list,
each with the one position where it is: a constant that is added gets the next position, and one
whose name is in the table changes neither.  So both ways of keeping a catalog answer alike, and
after any additions the catalog holds the first constant of each name, in order.

* `Catalog.addAll` : the catalog after any additions, and `Catalog.names_addAll`,
  `Catalog.find?_addAll` : what it holds.
* `Indexed` : a list and a table that say the same.
* `Indexed.add`, `Indexed.find?`, `Indexed.addAll` : the same on a list and a table.
* `Indexed.catalog_add`, `Indexed.find?_eq` : they cannot be told apart from a catalog.
* `Catalog.addAll_accounts` : **any additions.**
-/

namespace MacroConstants

namespace Catalog

variable {k : Catalog} {c : Constant} {cs : List Constant} {name : Bytes}

/-! ### One addition -/

theorem snd_add_eq_true_iff : (k.add c).2 = true ↔ c.name ∉ k.names := by
  by_cases h : c.name ∈ k.names
  · simp [add_of_mem h, h]
  · simp [(add_of_notMem h).2, h]

/-- A constant that is refused leaves the catalog as it is. -/
theorem fst_add_of_refused (h : (k.add c).2 = false) : (k.add c).1 = k := by
  have htaken : c.name ∈ k.names := by
    by_contra hfree
    rw [(add_of_notMem hfree).2] at h
    cases h
  rw [add_of_mem htaken]

/-- The names are those before, and the new one if it is none of them. -/
theorem names_add :
    (k.add c).1.names = if c.name ∈ k.names then k.names else k.names ++ [c.name] := by
  by_cases h : c.name ∈ k.names
  · rw [add_of_mem h, if_pos h]
  · rw [if_neg h, names, (add_of_notMem h).1, List.map_append]
    rfl

theorem find?_eq_none_iff : k.find? name = none ↔ name ∉ k.names := by
  simp [find?, names]

/-- A name is looked up among the constants before, and only then at the new one. -/
theorem find?_add : (k.add c).1.find? name = (k.find? name).or ([c].find? (·.name == name)) := by
  by_cases h : c.name ∈ k.names
  · rw [add_of_mem h]
    cases hfound : k.find? name with
    | some d => rfl
    | none =>
      have hother : c.name ≠ name := fun heq => find?_eq_none_iff.1 hfound (heq ▸ h)
      simp [hother]
  · rw [find?, (add_of_notMem h).1, List.find?_append]
    rfl

/-! ### Any additions -/

/-- The catalog after constants are added in order. -/
def addAll (cs : List Constant) : Catalog := cs.foldl (fun k c => (k.add c).1) {}

theorem addAll_concat (cs : List Constant) (c : Constant) :
    addAll (cs ++ [c]) = ((addAll cs).add c).1 := by
  rw [addAll, List.foldl_append]
  rfl

/-- The names are listed in the order in which they first came. -/
theorem names_addAll (cs : List Constant) :
    (addAll cs).names = (cs.map Constant.name).eraseDups := by
  induction cs using List.reverseRecOn with
  | nil => rfl
  | append_singleton cs c ih =>
    rw [addAll_concat, names_add, ih, List.map_append, List.eraseDups_append, List.map_singleton]
    by_cases h : c.name ∈ cs.map Constant.name
    · have hnone : [c.name].removeAll (cs.map Constant.name) = [] := by
        simpa [List.removeAll] using h
      rw [if_pos (List.mem_eraseDups.2 h), hnone, List.eraseDups_nil, List.append_nil]
    · have hone : [c.name].removeAll (cs.map Constant.name) = [c.name] := by
        simpa [List.removeAll] using h
      rw [if_neg (mt List.mem_eraseDups.1 h), hone]
      rfl

/-- The first constant of a name is looked up. -/
theorem find?_addAll (cs : List Constant) (name : Bytes) :
    (addAll cs).find? name = cs.find? (·.name == name) := by
  induction cs using List.reverseRecOn with
  | nil => rfl
  | append_singleton cs c ih => rw [addAll_concat, find?_add, ih, List.find?_append]

theorem mem_names_addAll : name ∈ (addAll cs).names ↔ ∃ c ∈ cs, c.name = name := by
  rw [names_addAll, List.mem_eraseDups, List.mem_map]

end Catalog

/-! ### A list and a table -/

/-- Constants in a list, and a table of their positions. -/
structure Indexed where
  items : List Constant := []
  table : Std.HashMap Bytes ℕ := {}
  /-- A name stands in the table with a position exactly if it is the name at this position. -/
  table_def : ∀ (name : Bytes) (i : ℕ),
    table[name]? = some i ↔ items[i]?.map Constant.name = some name := by simp

namespace Indexed

variable {x : Indexed} {c : Constant} {name : Bytes} {i : ℕ}

/-- The names in order. -/
def names (x : Indexed) : List Bytes := x.items.map Constant.name

/-- The constant at the position of a name. -/
def find? (x : Indexed) (name : Bytes) : Option Constant := do
  let i ← x.table[name]?
  x.items[i]?

theorem getElem?_names (x : Indexed) (i : ℕ) :
    x.names[i]? = some name ↔ x.table[name]? = some i := by
  rw [x.table_def, names, List.getElem?_map]

/-- Two positions have different names, as a name has one position. -/
theorem nodup_names (x : Indexed) : x.names.Nodup := by
  rw [List.nodup_iff_getElem?_ne_getElem?]
  intro i j hij hj heq
  have hname : x.names[j]? = some x.names[j] := List.getElem?_eq_getElem hj
  have hi := (x.getElem?_names i).1 (heq.trans hname)
  have hj := (x.getElem?_names j).1 hname
  have hsame : i = j := Option.some.inj (hi.symm.trans hj)
  omega

/-- The table knows the names of the list. -/
theorem mem_table_iff : name ∈ x.table ↔ name ∈ x.names := by
  rw [Std.HashMap.mem_iff_isSome_getElem?, Option.isSome_iff_exists, List.mem_iff_getElem?]
  exact exists_congr fun i => (x.getElem?_names i).symm

/-- A position of the table is one of the list. -/
theorem lt_length_of_getElem? (h : x.table[name]? = some i) : i < x.items.length := by
  by_contra hle
  have hnone : x.items[i]? = none := List.getElem?_eq_none (Nat.le_of_not_lt hle)
  rw [x.table_def, hnone] at h
  cases h

/-- With a new constant at the end and its name in the table, the two still say the same. -/
theorem table_def_concat (hnew : c.name ∉ x.table) (name : Bytes) (i : ℕ) :
    (x.table.insert c.name x.items.length)[name]? = some i ↔
      (x.items ++ [c])[i]?.map Constant.name = some name := by
  rw [Std.HashMap.getElem?_insert]
  rcases Nat.lt_or_ge i x.items.length with hi | hi
  · -- an old position, at which there is an old name
    rw [List.getElem?_append_left hi, ← x.table_def]
    split
    · rename_i heq
      rw [← beq_iff_eq.1 heq, Std.HashMap.getElem?_eq_none hnew]
      exact iff_of_false (fun h => hi.ne' (Option.some.inj h)) nofun
    · rfl
  · have hold : x.table[name]? ≠ some i :=
      fun h => absurd (lt_length_of_getElem? h) (Nat.not_lt.2 hi)
    rw [List.getElem?_append_right hi]
    by_cases hname : c.name = name
    · have hlast : i - x.items.length = 0 ↔ x.items.length = i := by omega
      simp [hname, List.getElem?_singleton, hlast]
    · simp [hname, hold, List.getElem?_singleton]

/-- Puts a constant at the end, and its name with this position in the table, unless the name is
there already; says whether it did. -/
def add (x : Indexed) (c : Constant) : Indexed × Bool :=
  if hnew : c.name ∈ x.table then (x, false)
  else (⟨x.items ++ [c], x.table.insert c.name x.items.length, table_def_concat hnew⟩, true)

/-- After constants are added in order. -/
def addAll (cs : List Constant) : Indexed := cs.foldl (fun x c => (x.add c).1) {}

/-- The catalog that is kept. -/
def catalog (x : Indexed) : Catalog := ⟨x.items, x.nodup_names⟩

theorem catalog_add (x : Indexed) (c : Constant) :
    (x.add c).1.catalog = (x.catalog.add c).1 ∧ (x.add c).2 = (x.catalog.add c).2 := by
  by_cases h : c.name ∈ x.table
  · have hmem : c.name ∈ x.catalog.names := mem_table_iff.1 h
    rw [add, dif_pos h, Catalog.add_of_mem hmem]
    exact ⟨rfl, rfl⟩
  · have hnew : c.name ∉ x.catalog.names := mt mem_table_iff.2 h
    obtain ⟨hitems, hadded⟩ := Catalog.add_of_notMem hnew
    rw [add, dif_neg h]
    exact ⟨Catalog.ext hitems.symm, hadded.symm⟩

theorem find?_eq (x : Indexed) (name : Bytes) : x.find? name = x.catalog.find? name := by
  refine Option.ext fun c => ?_
  rw [Catalog.find?_eq_some_iff, find?]
  constructor
  · intro h
    obtain ⟨i, hi, hc⟩ := Option.bind_eq_some_iff.1 h
    have hname := (x.table_def name i).1 hi
    rw [hc] at hname
    exact ⟨List.mem_of_getElem? hc, Option.some.inj hname⟩
  · rintro ⟨hc, rfl⟩
    obtain ⟨i, hi⟩ := List.mem_iff_getElem?.1 hc
    have hposition : x.table[c.name]? = some i :=
      (x.table_def c.name i).2 (congrArg (Option.map Constant.name) hi)
    exact Option.bind_eq_some_iff.2 ⟨i, hposition, hi⟩

theorem catalog_addAll (cs : List Constant) : (addAll cs).catalog = Catalog.addAll cs := by
  induction cs using List.reverseRecOn with
  | nil => rfl
  | append_singleton cs c ih =>
    have hlast : addAll (cs ++ [c]) = ((addAll cs).add c).1 := by
      rw [addAll, List.foldl_append]
      rfl
    rw [hlast, Catalog.addAll_concat, (catalog_add ..).1, ih]

/-- A constant that is refused changes neither the list nor the table. -/
theorem fst_add_of_snd_eq_false {x : Indexed} {c : Constant} (h : (x.add c).2 = false) :
    (x.add c).1 = x := by
  unfold add at h ⊢
  split
  · rfl
  · rename_i hnew
    rw [dif_neg hnew] at h
    cases h

end Indexed

/-- **Any additions.**  After constants are added in order, one more is added exactly if none of its
name was, and otherwise nothing changes.  The names are those that were added, in the order in which
they first came and without repetitions, and the size is their number; a name is looked up to the
first constant that was added with it, and to none exactly if it never was.  A list and a table that
are kept together do just the same: they hold the same constants, accept and refuse the same and
find the same, a refused constant changes neither, and the table always knows the names of the list
with their positions. -/
theorem Catalog.addAll_accounts (cs : List Constant) :
    let k := addAll cs
    let x := Indexed.addAll cs
    (∀ c, (k.add c).2 = true ↔ ∀ d ∈ cs, d.name ≠ c.name) ∧
    (∀ c, (k.add c).2 = false → (k.add c).1 = k) ∧
    (k.names = (cs.map Constant.name).eraseDups ∧ k.names.Nodup ∧
      ∀ name, name ∈ k.names ↔ ∃ d ∈ cs, d.name = name) ∧
    k.size = (cs.map Constant.name).toFinset.card ∧
    (∀ name, k.find? name = cs.find? (·.name == name) ∧
      (k.find? name = none ↔ ∀ d ∈ cs, d.name ≠ name)) ∧
    x.catalog = k ∧
    (∀ c, (x.add c).1.catalog = (k.add c).1 ∧ (x.add c).2 = (k.add c).2 ∧
      ((x.add c).2 = false → (x.add c).1 = x)) ∧
    ∀ name, x.find? name = k.find? name ∧
      ∀ i, x.table[name]? = some i ↔ x.names[i]? = some name := by
  have hnew : ∀ name, name ∉ (addAll cs).names ↔ ∀ d ∈ cs, d.name ≠ name := by
    intro name
    rw [mem_names_addAll]
    push Not
    rfl
  have hcatalog := Indexed.catalog_addAll cs
  refine ⟨fun c => snd_add_eq_true_iff.trans (hnew c.name), fun c => fst_add_of_refused,
    ⟨names_addAll cs, (addAll cs).distinct, fun name => mem_names_addAll⟩, ?_,
    fun name => ⟨find?_addAll cs name, find?_eq_none_iff.trans (hnew name)⟩, hcatalog,
    fun c => ?_, fun name => ⟨?_, fun i => (Indexed.getElem?_names _ i).symm⟩⟩
  · have hnames : (addAll cs).names.toFinset = (cs.map Constant.name).toFinset := by
      ext name
      rw [List.mem_toFinset, List.mem_toFinset, mem_names_addAll, List.mem_map]
    have hsize : (addAll cs).size = (addAll cs).names.length :=
      (List.length_map Constant.name).symm
    rw [← hnames, hsize]
    exact (List.toFinset_card_of_nodup (addAll cs).distinct).symm
  · have hadd := (Indexed.addAll cs).catalog_add c
    rw [hcatalog] at hadd
    exact ⟨hadd.1, hadd.2, Indexed.fst_add_of_snd_eq_false⟩
  · rw [Indexed.find?_eq, hcatalog]

end MacroConstants
