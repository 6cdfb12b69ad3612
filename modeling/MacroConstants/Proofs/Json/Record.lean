import MacroConstants.Proofs.History
import MacroConstants.Proofs.Json.Document
import MacroConstants.Proofs.Json.Number
import MacroConstants.Proofs.Literal

/-!
# Catalogs as JSON texts

A catalog is printed as a JSON array with an object for each constant.  What is printed as a string
has to be UTF-8, and is a string of JSON then; nothing is said here of other strings.  But not every
value is a value of JSON: there is no token for an infinite number or for one that is none.

* `Value.Computed`, `Resolver.Computes` : the values that compiled probes return.
* `Value.Sound` : those and what literals spell, **the invariant of every history**.
* `Value.Finite`, `Value.IsUtf8` : the numbers that JSON has tokens for, and the strings that may be
  printed; `Value.Writable` : both.
* `Catalog.wellFormed_report_iff` : **a printed catalog is a JSON text exactly if every number that
  is shown is finite.**
-/

namespace MacroConstants

open Json (Digits)

/-! ### Values -/

namespace Value

/-- The value is one that a compiled probe can return. -/
def Computed : Value → Prop
  | decimal .. | other => False
  | _ => True

/-- Decimal text is the text of a floating literal. -/
def Sound : Value → Prop
  | decimal type text => type.isReal = true ∧ Literal.isPointed text = true
  | _ => True

/-- A computed number is finite. -/
def Finite : Value → Prop
  | float x | double x => x.isFinite = true
  | _ => True

/-- A string is UTF-8. -/
def IsUtf8 : Value → Prop
  | string text => Bytes.IsUtf8 text
  | _ => True

/-- What JSON can write: finite numbers and strings that are UTF-8. -/
def Writable (v : Value) : Prop := v.Finite ∧ v.IsUtf8

variable {v : Value}

theorem Computed.sound (h : v.Computed) : v.Sound := by
  cases v <;> trivial

end Value

/-- The text of a floating literal is digits, a point and digits. -/
theorem Literal.exists_of_isPointed {text : Bytes} (h : isPointed text = true) :
    ∃ w f, Digits w ∧ Digits f ∧ text = w ++ ascii '.' :: f := by
  obtain ⟨w, f, rfl, hw, hf, hall⟩ := isPointed_iff.1 h
  rw [List.forall_mem_append] at hall
  exact ⟨w, f, ⟨hw, List.all_eq_true.2 hall.1⟩, ⟨hf, List.all_eq_true.2 hall.2⟩, rfl⟩

theorem Literal.sound_of_real? {raw : Bytes} {v : Value} (h : real? raw = some v) : v.Sound := by
  unfold real? at h
  dsimp only at h
  split at h
  · rename_i hp
    obtain rfl := Option.some.inj h
    refine ⟨?_, hp⟩
    split <;> rfl
  · cases h

theorem Literal.sound_of_integer? {raw : Bytes} {v : Value} (h : integer? raw = some v) :
    v.Sound := by
  unfold integer? at h
  dsimp only at h
  split at h
  · cases h
  · obtain rfl := Option.some.inj (Option.ite_none_right_eq_some.1 h).2
    trivial

theorem Literal.sound_of_string? {raw : Bytes} {v : Value} (h : string? raw = some v) :
    v.Sound := by
  unfold string? at h
  split at h
  · cases h
  · obtain rfl := Option.some.inj (Option.ite_none_right_eq_some.1 h).2
    trivial

/-- What a literal spells is an integer, a word or the text of a floating literal. -/
theorem Literal.sound_of_read? {raw : Bytes} {v : Value} (h : read? raw = some v) : v.Sound := by
  simp only [read?, Option.orElse_eq_orElse, Option.orElse_eq_or, Option.or_eq_some_iff] at h
  rcases h with h | ⟨-, h | ⟨-, h⟩⟩
  · exact sound_of_integer? h
  · exact sound_of_string? h
  · exact sound_of_real? h

namespace Value

variable {v : Value}

theorem recognised_general (x : Binary64) :
    (Json.Leaf.number (Decimal.general 17 x)).Recognised := by
  cases hx : x.isFinite with
  | true => exact .inl (Json.number_general (by decide) hx)
  | false => exact .inr (Json.scan_general hx)

theorem valid_general_iff (x : Binary64) :
    (Json.Leaf.number (Decimal.general 17 x)).Valid ↔ x.isFinite = true := by
  refine ⟨fun h => ?_, Json.number_general (by decide)⟩
  cases hx : x.isFinite with
  | true => rfl
  | false => cases (Json.scan_general hx).symm.trans (Json.Number.scan_eq h)

/-- The text of a floating literal is written as its token. -/
theorem leaf_decimal {t : TypeTag} (ht : t.isReal = true) (w f : Bytes) :
    (decimal t (w ++ ascii '.' :: f)).leaf = .number (decimalToken (w ++ ascii '.' :: f)) := by
  cases t <;> simp_all [leaf, type, hasDecimalText, Value.text, TypeTag.isReal]

theorem number_decimal {t : TypeTag} {text : Bytes} (h : (decimal t text).Sound) :
    ∃ s, (decimal t text).leaf = .number s ∧ Json.Number s := by
  obtain ⟨ht, hp⟩ := h
  obtain ⟨w, f, hw, hf, rfl⟩ := Literal.exists_of_isPointed hp
  exact ⟨_, leaf_decimal ht w f, Json.number_decimalToken hw hf⟩

theorem recognised_leaf (h : v.Sound) : v.leaf.Recognised := by
  cases v with
  | int i => exact .inl (Json.number_signed _)
  | long i => exact .inl (Json.number_signed _)
  | float x => exact recognised_general x
  | double x => exact recognised_general x
  | string text => trivial
  | pointer a => trivial
  | decimal t text =>
    obtain ⟨s, hs, hn⟩ := number_decimal h
    rw [hs]
    exact .inl hn
  | other => trivial

/-- A value can be written exactly if its leaf can. -/
theorem valid_leaf_iff (h : v.Sound) : v.leaf.Valid ↔ v.Writable := by
  cases v with
  | int i => exact iff_of_true (Json.number_signed _) ⟨trivial, trivial⟩
  | long i => exact iff_of_true (Json.number_signed _) ⟨trivial, trivial⟩
  | float x => exact (valid_general_iff x).trans (and_iff_left trivial).symm
  | double x => exact (valid_general_iff x).trans (and_iff_left trivial).symm
  | string text => exact (and_iff_right trivial).symm
  | pointer a =>
    have ha : Bytes.isAscii (addressText a) = true :=
      Bytes.isAscii_append.trans (Numeral.isAscii_hexadecimal _)
    exact iff_of_true (Bytes.isUtf8_of_isAscii ha) ⟨trivial, trivial⟩
  | decimal t text =>
    obtain ⟨s, hs, hn⟩ := number_decimal h
    rw [hs]
    exact iff_of_true hn ⟨trivial, trivial⟩
  | other => exact iff_of_true trivial ⟨trivial, trivial⟩

end Value

/-! ### Constants -/

/-- The answers about values are such as compiled probes return. -/
def Resolver.Computes {σ : Type} (r : Resolver σ) : Prop :=
  ∀ t e s v, (r.value t e s).1 = some v → v.Computed

namespace Constant

variable {σ : Type} {r : Resolver σ} {resolve : Bool} {c : Constant} {s : σ}

/-- The name and the text are UTF-8. -/
def IsUtf8 (c : Constant) : Prop :=
  Bytes.IsUtf8 c.name ∧ ∀ raw, c.raw = some raw → Bytes.IsUtf8 raw

/-- The value, if it is known, is sound. -/
def Sound (c : Constant) : Prop := ∀ v, c.progress.value? = some (some v) → v.Sound

theorem Origin.sound {o : Origin} (h : o.Faithful) : o.constant.Sound := by
  intro v hv
  obtain ⟨-, raw, hraw⟩ := h.literal hv
  exact Literal.sound_of_read? hraw

theorem Sound.type (hc : c.Sound) : (c.type r s).2.1.Sound := by
  unfold Constant.type
  split
  · -- just the type is known now
    intro v hv
    cases hv
  · exact hc
  · exact hc

theorem Sound.value (hr : r.Computes) (hc : c.Sound) : (c.value r s).2.1.Sound := by
  unfold Constant.value
  split
  · exact hc
  · intro v hv
    obtain ⟨-, e, he⟩ := exists_of_askValue (Option.some.inj hv)
    exact (hr _ e _ v he).sound

theorem IsUtf8.type (hc : c.IsUtf8) : (c.type r s).2.1.IsUtf8 := by
  unfold Constant.type
  split <;> exact hc

theorem IsUtf8.value (hc : c.IsUtf8) : (c.value r s).2.1.IsUtf8 := by
  unfold Constant.value
  split
  · exact hc
  · exact IsUtf8.type hc

end Constant

/-! ### Records -/

namespace Report.Record

/-- The name and the text are UTF-8 and the value, if there is one, is sound. -/
structure Sound (rec : Record) : Prop where
  name : Bytes.IsUtf8 rec.name
  raw : ∀ raw, rec.raw = some raw → Bytes.IsUtf8 raw
  value : ∀ v, rec.value = some v → v.Sound

/-- The value, if it is a computed number, is finite. -/
def Finite (rec : Record) : Prop := ∀ v, rec.value = some v → v.Finite

/-- The value, if it is a string, is UTF-8. -/
def ValueIsUtf8 (rec : Record) : Prop := ∀ v, rec.value = some v → v.IsUtf8

/-- The value, if there is one, is one that JSON can write. -/
def Writable (rec : Record) : Prop := ∀ v, rec.value = some v → v.Writable

variable {rec : Record}

theorem writable_iff (h : rec.ValueIsUtf8) : rec.Writable ↔ rec.Finite :=
  forall₂_congr fun v hv => and_iff_left (h v hv)

theorem isUtf8_typeName (t : TypeTag) : Bytes.IsUtf8 t.name :=
  Bytes.isUtf8_of_isAscii (by cases t <;> rfl)

theorem isUtf8_key {rec : Record} : ∀ m ∈ rec.members, Bytes.IsUtf8 m.1 := by
  simp only [members, List.forall_mem_cons]
  exact ⟨Bytes.isUtf8_of_isAscii rfl, Bytes.isUtf8_of_isAscii rfl, Bytes.isUtf8_of_isAscii rfl,
    Bytes.isUtf8_of_isAscii rfl, by simp⟩

theorem Sound.recognised (h : rec.Sound) : Json.Object.Recognised rec.members := by
  simp only [Json.Object.Recognised, members, List.forall_mem_cons]
  refine ⟨trivial, ?_, ?_, ?_, by simp⟩
  · cases rec.raw <;> trivial
  · cases rec.type <;> trivial
  · cases hv : rec.value with
    | none => trivial
    | some v => exact Value.recognised_leaf (h.value v hv)

/-- The value decides whether a record can be written. -/
theorem Sound.valid_iff (h : rec.Sound) : Json.Object.Valid rec.members ↔ rec.Writable := by
  have hraw : ((rec.raw.map Json.Leaf.string).getD .null).Valid := by
    cases hr : rec.raw with
    | none => trivial
    | some raw => exact h.raw raw hr
  have htype : ((rec.type.map fun t => Json.Leaf.string t.name).getD .null).Valid := by
    cases rec.type with
    | none => trivial
    | some t => exact isUtf8_typeName t
  have hvalue : ((rec.value.map Value.leaf).getD .null).Valid ↔ rec.Writable := by
    unfold Writable
    cases hv : rec.value with
    | none => simp [Json.Leaf.Valid]
    | some v => simpa using Value.valid_leaf_iff (h.value v hv)
  rw [← hvalue]
  constructor
  · have hm : (bytes "value", (rec.value.map Value.leaf).getD .null) ∈ rec.members := by
      simp [members]
    exact fun hv => (hv _ hm).2
  · intro hv m hm
    refine ⟨isUtf8_key m hm, ?_⟩
    simp only [members, List.mem_cons, List.not_mem_nil, or_false] at hm
    rcases hm with rfl | rfl | rfl | rfl
    · exact h.name
    · exact hraw
    · exact htype
    · exact hv

end Report.Record

namespace Constant

variable {σ : Type} {r : Resolver σ} {resolve : Bool} {c : Constant} {s : σ}

theorem sound_knownRecord (hc : c.Sound) (hu : c.IsUtf8) : c.knownRecord.Sound :=
  ⟨hu.1, hu.2, fun v hv => hc v (Option.join_eq_some_iff.1 hv)⟩

theorem sound_record (hr : r.Computes) (hc : c.Sound) (hu : c.IsUtf8) :
    (c.record r resolve s).1.Sound := by
  rw [record_eq_knownRecord]
  exact sound_knownRecord (record_keeps (fun _ _ => Sound.type) (fun _ _ => Sound.value hr) hc)
    (record_keeps (fun _ _ => IsUtf8.type) (fun _ _ => IsUtf8.value) hu)

end Constant

/-! ### Catalogs -/

namespace Catalog

variable {σ : Type} {r : Resolver σ} {k : Catalog}

theorem Reachable.sound (hr : r.Computes) (hk : k.Reachable r) : ∀ c ∈ k.items, c.Sound :=
  hk.forall_items (fun _ => Constant.Origin.sound) (fun _ _ => Constant.Sound.type)
    (fun _ _ => Constant.Sound.value hr)

theorem Reachable.sound_records (hr : r.Computes) (hk : k.Reachable r)
    (hu : ∀ c ∈ k.items, c.IsUtf8) (resolve : Bool) (s : σ) :
    ∀ rec ∈ (k.records r resolve s).1, rec.Sound :=
  forall_seen_visitAll (Constant.recordLook r resolve)
    (P := fun c => c.Sound ∧ c.IsUtf8) (fun _ _ hc => Constant.sound_record hr hc.1 hc.2)
    fun c hc => ⟨hk.sound hr c hc, hu c hc⟩

/-- **When a printed catalog is a JSON text.**  Whatever the history of a catalog whose names and
texts are UTF-8, and whatever compiled probes have returned: if the strings that are shown as values
are UTF-8 too, what is printed is a JSON text exactly if every number that is shown is finite; it is
then an array with an object for each constant. -/
theorem wellFormed_report_iff (hr : r.Computes) (hk : k.Reachable r)
    (hu : ∀ c ∈ k.items, c.IsUtf8) (resolve : Bool) (s : σ)
    (hstrings : ∀ rec ∈ (k.records r resolve s).1, rec.ValueIsUtf8) :
    let text := (k.report r resolve .json s).1
    let shown := (k.records r resolve s).1
    (Json.WellFormed text ↔ ∀ rec ∈ shown, rec.Finite) ∧
    ((∀ rec ∈ shown, rec.Finite) →
      ∃ objects : List (List Json.Shape), objects.length = k.size ∧
        Json.IsDocument (.array (objects.map .object)) text) := by
  intro text shown
  have hs := hk.sound_records hr hu resolve s
  have hkeys : ∀ o ∈ shown.map Report.Record.members, ∀ m ∈ o, Bytes.IsUtf8 m.1 :=
    List.forall_mem_map.2 fun rec _ => Report.Record.isUtf8_key
  have hrec : ∀ o ∈ shown.map Report.Record.members, Json.Object.Recognised o :=
    List.forall_mem_map.2 fun rec hrec => (hs rec hrec).recognised
  have hvalid : (∀ o ∈ shown.map Report.Record.members, Json.Object.Valid o) ↔
      ∀ rec ∈ shown, rec.Finite := by
    rw [List.forall_mem_map]
    exact forall₂_congr fun rec hrec =>
      (hs rec hrec).valid_iff.trans (Report.Record.writable_iff (hstrings rec hrec))
  refine ⟨(Json.wellFormed_document_iff hkeys hrec).trans hvalid, fun hw => ?_⟩
  have hd := Json.isDocument_document (hvalid.2 hw)
  refine ⟨shown.map fun rec => rec.members.map fun m => m.2.shape, ?_, ?_⟩
  · rw [List.length_map]
    exact length_seen_visitAll (Constant.recordLook r resolve) k.items s
  · rw [List.map_map] at hd ⊢
    exact hd

/-- A macro that expands to an infinite number can be printed until its value is known. -/
theorem wellFormed_report_huge :
    let huge := Value.double ⟨0x7ff0000000000000⟩
    let r : Resolver Unit :=
      Answers.resolver { types := [(bytes "HUGE", .double)], values := [(bytes "HUGE", huge)] }
    let k := (add {} (Constant.Origin.named (bytes "HUGE") (some (bytes "1e999")) true).constant).1
    r.Computes ∧ k.Reachable r ∧ (∀ c ∈ k.items, c.IsUtf8) ∧
      (∀ resolve, ∀ rec ∈ (k.records r resolve ()).1, rec.ValueIsUtf8) ∧
      Json.WellFormed (k.report r false .json ()).1 ∧
      ¬Json.WellFormed (k.report r true .json ()).1 := by
  intro huge r k
  have hr : r.Computes := by
    intro t e s v hv
    have hv : [(bytes "HUGE", huge)].lookup e = some v := hv
    rw [List.lookup_cons] at hv
    split at hv
    · exact Option.some.inj hv ▸ trivial
    · cases hv
  have hk : k.Reachable r := .added .empty trivial
  have hu : ∀ c ∈ k.items, c.IsUtf8 := by
    intro c hc
    obtain rfl : c = .unresolved (bytes "HUGE") (some (bytes "1e999")) := List.mem_singleton.1 hc
    refine ⟨Bytes.isUtf8_of_isAscii rfl, fun raw hraw => ?_⟩
    exact Option.some.inj hraw ▸ Bytes.isUtf8_of_isAscii rfl
  have hunresolved : ∀ rec ∈ (k.records r false ()).1, rec.value = none := by decide
  have hresolved : ∀ rec ∈ (k.records r true ()).1, rec.value = some huge := by decide
  have hstrings : ∀ resolve, ∀ rec ∈ (k.records r resolve ()).1, rec.ValueIsUtf8 := by
    intro resolve rec hrec v hv
    cases resolve with
    | false =>
      rw [hunresolved rec hrec] at hv
      cases hv
    | true =>
      rw [hresolved rec hrec] at hv
      exact Option.some.inj hv ▸ trivial
  refine ⟨hr, hk, hu, hstrings, ?_, ?_⟩
  · rw [(wellFormed_report_iff hr hk hu false () (hstrings false)).1]
    intro rec hrec v hv
    rw [hunresolved rec hrec] at hv
    cases hv
  · rw [(wellFormed_report_iff hr hk hu true () (hstrings true)).1]
    intro hfinite
    have hshown := hfinite ⟨bytes "HUGE", some (bytes "1e999"), some .double, some huge⟩ (by decide)
    have hhuge : Binary64.isFinite ⟨0x7ff0000000000000⟩ = true := hshown huge rfl
    exact absurd hhuge (by decide)

end Catalog

end MacroConstants
