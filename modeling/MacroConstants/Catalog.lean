import MacroConstants.Constant

/-!
# Catalogs

Constants in the order in which they were found, no two of one name.

* `Catalog` — the constants, with the proof that their names differ.
* `Catalog.add` — puts a constant at the end unless its name is taken.
* `Catalog.find?` — the constant of a name.
* `Catalog.visit`, `Catalog.visitNamed` — look at all constants or at one of them; a look may
  settle more of a constant but keeps its name.
-/

namespace MacroConstants

/-- Constants in order of discovery, no two of one name. -/
structure Catalog where
  items : List Constant := []
  distinct : (items.map Constant.name).Nodup := by exact List.nodup_nil

namespace Catalog

/-- The names in order. -/
def names (k : Catalog) : List Bytes := k.items.map Constant.name

/-- The number of constants. -/
def size (k : Catalog) : Nat := k.items.length

/-- The constant of a name. -/
def find? (k : Catalog) (name : Bytes) : Option Constant :=
  k.items.find? (·.name == name)

theorem nodup_concat {k : Catalog} {c : Constant} (fresh : c.name ∉ k.names) :
    ((k.items ++ [c]).map Constant.name).Nodup := by
  rw [List.map_append, List.nodup_append]
  refine ⟨k.distinct, by simp, fun a ha b hb => ?_⟩
  obtain rfl : b = c.name := by simpa using hb
  exact fun h => fresh (h ▸ ha)

/-- Puts a constant at the end unless its name is taken; says whether it did. -/
def add (k : Catalog) (c : Constant) : Catalog × Bool :=
  if taken : c.name ∈ k.names then (k, false)
  else (⟨k.items ++ [c], nodup_concat taken⟩, true)

section Visits

variable {σ α : Type}

/-- A look at a constant that may settle more of it. -/
structure Look (σ α : Type) where
  run : Constant → σ → α × Constant × σ
  keeps : ∀ c s, (run c s).2.1.name = c.name

/-- The look at every constant of a list in turn. -/
def visitAll (look : Look σ α) : List Constant → σ → List α × List Constant × σ
  | [], s => ([], [], s)
  | c :: cs, s =>
    let (a, c, s) := look.run c s
    let (as, cs, s) := visitAll look cs s
    (a :: as, c :: cs, s)

/-- The look at the first constant of a name. -/
def visitFirst (look : Look σ α) (name : Bytes) :
    List Constant → σ → Option α × List Constant × σ
  | [], s => (none, [], s)
  | c :: cs, s =>
    if c.name = name then
      let (a, c, s) := look.run c s
      (some a, c :: cs, s)
    else
      let (a, cs, s) := visitFirst look name cs s
      (a, c :: cs, s)

theorem map_name_visitAll (look : Look σ α) (cs : List Constant) (s : σ) :
    (visitAll look cs s).2.1.map Constant.name = cs.map Constant.name := by
  induction cs generalizing s with
  | nil => rfl
  | cons c cs ih => simp [visitAll, look.keeps, ih]

theorem map_name_visitFirst (look : Look σ α) (name : Bytes) (cs : List Constant) (s : σ) :
    (visitFirst look name cs s).2.1.map Constant.name = cs.map Constant.name := by
  induction cs generalizing s with
  | nil => rfl
  | cons c cs ih =>
    unfold visitFirst
    split
    · simp [look.keeps]
    · simp [ih]

/-- Looks at every constant in order. -/
def visit (look : Look σ α) (k : Catalog) (s : σ) : List α × Catalog × σ :=
  let found := visitAll look k.items s
  (found.1, ⟨found.2.1, map_name_visitAll look k.items s ▸ k.distinct⟩, found.2.2)

/-- Looks at the constant of a name; nothing if there is none. -/
def visitNamed (look : Look σ α) (name : Bytes) (k : Catalog) (s : σ) :
    Option α × Catalog × σ :=
  let found := visitFirst look name k.items s
  (found.1, ⟨found.2.1, map_name_visitFirst look name k.items s ▸ k.distinct⟩, found.2.2)

end Visits

end Catalog

end MacroConstants
