import MacroConstants.Host
import MacroConstants.Proofs.Bytes

/-!
# Temporary files

A directory that is made among the temporary files has its files to itself, and leaves no trace
when it is removed.

* `TemporaryFiles.remove_create` : an entry that is made and removed.
* `Response.left?` : what a command leaves at a path.
* `TemporaryFiles.read?_putAll` : a file of a directory that comes last.
* `TemporaryFiles.Placed` : the entries lie in the temporary directory, the files in their entries.
* `TemporaryFiles.Placed.read?_none` : **no file is in a directory that has not been made**, and
  `TemporaryFiles.Placed.read?_entry_none` : nor is it one.
-/

namespace MacroConstants

/-- What a command leaves at a path: of several contents the last. -/
def Response.left? (r : Response) (path : Bytes) : Option Content := r.leaves.reverse.lookup path

/-- An entry after files are given their contents in order. -/
def Entry.putAll (leaves : List (Bytes × Content)) (e : Entry) : Entry :=
  leaves.foldl (fun e left => e.put left.1 left.2) e

theorem Entry.put_empty (ownerOnly : Bool) (path : Bytes) (content : Content) :
    (directory ownerOnly []).put path content = directory ownerOnly [(path, content)] := rfl

namespace TemporaryFiles

variable {t : TemporaryFiles} {path p temporary name rest : Bytes} {e : Entry} {content : Content}
  {leaves files : List (Bytes × Content)}

/-! ### A new entry -/

theorem modify_create (h : ∀ x ∈ t, x.1 ≠ path) (f : Entry → Entry) :
    (t.create path e).modify path f = t.create path (f e) := by
  have hrest : t.modify path f = t := by
    refine (List.map_congr_left fun x hx => ?_).trans (List.map_id t)
    dsimp only [id]
    rw [if_neg (h x hx)]
  have hnew : modify [(path, e)] path f = [(path, f e)] := by
    simp [modify]
  calc (t.create path e).modify path f = t.modify path f ++ modify [(path, e)] path f :=
        List.map_append
    _ = t.create path (f e) := by rw [hrest, hnew, create]

theorem remove_create (h : ∀ x ∈ t, x.1 ≠ path) : (t.create path e).remove path = t := by
  have hrest : t.filter (·.1 != path) = t :=
    List.filter_eq_self.2 fun x hx => bne_iff_ne.2 (h x hx)
  unfold create remove
  rw [List.filter_append, hrest, List.filter_singleton]
  simp

theorem foldl_modify_create (h : ∀ x ∈ t, x.1 ≠ path) (leaves : List (Bytes × Content)) :
    leaves.foldl (fun files left => files.modify path (Entry.put left.1 left.2)) (t.create path e) =
      t.create path (e.putAll leaves) := by
  induction leaves generalizing e with
  | nil => rfl
  | cons left leaves ih =>
    rw [List.foldl_cons, modify_create h, ih]
    rfl

/-! ### Reading -/

theorem lookup_filter_of_ne {path' : Bytes} (h : p ≠ path') :
    (files.filter (·.1 != path')).lookup p = files.lookup p := by
  induction files with
  | nil => rfl
  | cons f files ih =>
    rw [List.lookup_cons]
    by_cases hf : f.1 = path'
    · have hp : (p == f.1) = false := by rwa [hf, beq_eq_false_iff_ne]
      rw [List.filter_cons_of_neg (by simpa using hf), ih, hp]
    · rw [List.filter_cons_of_pos (by simpa using hf), List.lookup_cons, ih]

theorem lookup_put {left : Bytes × Content} :
    (files.filter (·.1 != left.1) ++ [left]).lookup p = ([left].lookup p).or (files.lookup p) := by
  rw [List.lookup_append]
  by_cases hp : p = left.1
  · have hold : (files.filter (·.1 != left.1)).lookup p = none := by
      refine List.lookup_eq_none_iff.2 fun f hf => ?_
      rw [hp, bne_comm]
      exact (List.mem_filter.1 hf).2
    have hnew : [left].lookup p = some left.2 := by
      rw [hp, List.lookup_cons_self]
    rw [hold, hnew]
    rfl
  · have hnew : [left].lookup p = none := by
      simpa using hp
    rw [lookup_filter_of_ne hp, hnew, Option.or_none, Option.none_or]

theorem read?_create :
    (t.create path e).read? p = (t.read? p).or ((filesOf (path, e)).lookup p) := by
  unfold create read? TemporaryFiles.files
  rw [List.flatMap_append, List.lookup_append, List.flatMap_singleton]

/-- Of a directory whose files were given their contents in order, the last content of a path
counts. -/
theorem lookup_putAll {ownerOnly : Bool} :
    (filesOf (path, (Entry.directory ownerOnly files).putAll leaves)).lookup p =
      (leaves.reverse.lookup p).or (files.lookup p) := by
  induction leaves generalizing files with
  | nil => rfl
  | cons left leaves ih =>
    have hput : (Entry.directory ownerOnly files).putAll (left :: leaves) =
        (Entry.directory ownerOnly (files.filter (·.1 != left.1) ++ [left])).putAll leaves := rfl
    rw [hput, ih, lookup_put, List.reverse_cons, List.lookup_append, Option.or_assoc]

/-! ### Where files are -/

/-- The entries lie right in the temporary directory, and the files of an entry are the entry
itself or lie in it. -/
structure Placed (temporary : Bytes) (t : TemporaryFiles) : Prop where
  entry : ∀ x ∈ t, ∃ name, x.1 = temporary ++ bytes "/" ++ name ∧ ascii '/' ∉ name
  file : ∀ x ∈ t, ∀ f ∈ filesOf x, f.1 = x.1 ∨ ∃ rest, f.1 = x.1 ++ bytes "/" ++ rest

/-- No file lies in a directory that has not been made. -/
theorem Placed.read?_none (ht : t.Placed temporary) (hname : ascii '/' ∉ name)
    (hfree : ∀ x ∈ t, x.1 ≠ temporary ++ bytes "/" ++ name) (rest : Bytes) :
    t.read? (temporary ++ bytes "/" ++ name ++ bytes "/" ++ rest) = none := by
  have hslash : bytes "/" = [ascii '/'] := rfl
  rw [read?, List.lookup_eq_none_iff]
  intro f hf
  obtain ⟨x, hx, hfx⟩ := List.mem_flatMap.1 hf
  obtain ⟨entry, hentry, hplain⟩ := ht.entry x hx
  rw [bne_iff_ne]
  intro heq
  rcases ht.file x hx f hfx with hself | ⟨inside, hinside⟩
  · -- the name of an entry has no slash
    rw [hself, hentry] at heq
    simp only [hslash, List.append_assoc, List.append_cancel_left_eq] at heq
    exact hplain (heq ▸ by simp)
  · rw [hinside, hentry] at heq
    simp only [hslash, List.append_assoc, List.append_cancel_left_eq, List.singleton_append] at heq
    have hnames := Bytes.eq_of_append_cons hname hplain (List.cons.inj heq).2
    exact hfree x hx (by rw [hentry, hnames])

/-- No file has the path of an entry that has not been made. -/
theorem Placed.read?_entry_none (ht : t.Placed temporary) (hname : ascii '/' ∉ name)
    (hfree : ∀ x ∈ t, x.1 ≠ temporary ++ bytes "/" ++ name) :
    t.read? (temporary ++ bytes "/" ++ name) = none := by
  rw [read?, List.lookup_eq_none_iff]
  intro f hf
  obtain ⟨x, hx, hfx⟩ := List.mem_flatMap.1 hf
  obtain ⟨entry, hentry, -⟩ := ht.entry x hx
  rw [bne_iff_ne]
  intro heq
  rcases ht.file x hx f hfx with hself | ⟨inside, hinside⟩
  · exact hfree x hx (heq.trans hself).symm
  · -- the path of a file in a directory goes on with a slash
    have hslash : ascii '/' ∈ bytes "/" := List.mem_singleton.2 rfl
    rw [hinside, hentry] at heq
    simp only [List.append_assoc, List.append_cancel_left_eq] at heq
    exact hname (heq ▸ by simp [hslash])

/-- A file that was just made is read. -/
theorem Placed.read?_create_file (ht : t.Placed temporary) (hname : ascii '/' ∉ name)
    (hfree : ∀ x ∈ t, x.1 ≠ temporary ++ bytes "/" ++ name) (content : Content) :
    (t.create (temporary ++ bytes "/" ++ name) (.file content)).read?
      (temporary ++ bytes "/" ++ name) = some content := by
  rw [read?_create, ht.read?_entry_none hname hfree, Option.none_or]
  exact List.lookup_cons_self

end TemporaryFiles

end MacroConstants
