import MacroConstants.Proofs.Coherence
import MacroConstants.Proofs.Convergence
import MacroConstants.Proofs.Json.Written

/-!
# What printed catalogs say

A catalog that was printed as JSON can be read back: object by object in the order of the constants,
and in each object the four members in order.  Nothing is lost on the way but what binary numbers
lose, which are written with a fixed number of digits.

* `Value.Denotes` : what a value is read as.
* `Resolver.Sound`, `Constant.Meaningful` : values have a type other than `other`, and decimal text
  is the text of a literal; **the invariant of every history**.
* `Constant.ShownAs` : what the object of a constant says, and what in it is null.
* `Catalog.read?_report` : **the printed catalog is read as its constants.**
-/

namespace MacroConstants

variable {σ : Type}

/-! ### Values -/

namespace Value

/-- What a value is read as: the integer, the text, the text of the address, or the rational that
the digits of decimal text denote. -/
inductive Denotes : Value → Json.Tree → Prop
  | int (i : Int64) : Denotes (.int i) (.number (i.toInt : ℚ))
  | long (i : Int64) : Denotes (.long i) (.number (i.toInt : ℚ))
  | string (text : Bytes) : Denotes (.string text) (.string text)
  | pointer (a : UInt64) :
      Denotes (.pointer a) (.string (bytes "0x" ++ Numeral.hexadecimal a.toNat))
  | decimal {t : TypeTag} {whole fraction : Bytes} : Json.Digits whole → Json.Digits fraction →
      Denotes (.decimal t (whole ++ ascii '.' :: fraction))
        (.number (Numeral.pointed whole fraction))

variable {v : Value} {t : Json.Tree}

theorem Denotes.ne_null (h : v.Denotes t) : t ≠ .null := by
  cases h <;> exact nofun

/-- The value is no binary number. -/
def Exact (v : Value) : Prop := v.type.isReal = true → v.hasDecimalText = true

/-- A value that is no binary number is written so that it can be read. -/
theorem exists_denotes (hsound : v.Sound) (hother : v.type ≠ .other) (hexact : v.Exact) :
    ∃ t, v.Denotes t ∧ v.leaf.Reads t := by
  cases v with
  | int i => exact ⟨_, .int i, Json.reads_number (Json.number_signed _) fun _ =>
      Json.number?_signed _⟩
  | long i => exact ⟨_, .long i, Json.reads_number (Json.number_signed _) fun _ =>
      Json.number?_signed _⟩
  | float x => cases hexact rfl
  | double x => cases hexact rfl
  | string text => exact ⟨_, .string text, Json.reads_string text⟩
  | pointer a => exact ⟨_, .pointer a, Json.reads_string _⟩
  | decimal t text =>
    obtain ⟨hreal, hpointed⟩ := id hsound
    obtain ⟨w, f, hw, hf, rfl⟩ := Literal.exists_of_isPointed hpointed
    rw [leaf_decimal hreal]
    exact ⟨_, .decimal hw hf, Json.reads_number (Json.number_decimalToken hw hf) fun _ =>
      Json.number?_decimalToken hw hf⟩
  | other => exact absurd rfl hother

/-- A value that is no binary number can be written if its text can. -/
theorem Exact.writable (h : v.Exact) (htext : ∀ text, v = .string text → Bytes.IsUtf8 text) :
    v.Writable := by
  cases v with
  | float x => cases h rfl
  | double x => cases h rfl
  | string text => exact ⟨trivial, htext text rfl⟩
  | _ => exact ⟨trivial, trivial⟩

end Value

theorem Prober.sound_of_decode {t : TypeTag} {r : Reading} {v : Value} (h : decode t r = some v) :
    v.Sound := by
  cases t with
  | string =>
    obtain ⟨text, -, rfl⟩ := Option.map_eq_some_iff.1 h
    trivial
  | other => cases h
  | _ =>
    obtain rfl := Option.some.inj h
    trivial

/-- The values that are answered have a type other than `other`, and decimal text is the text of a
literal. -/
def Resolver.Sound (r : Resolver σ) : Prop :=
  ∀ t e s v, (r.value t e s).1 = some v → v.Sound ∧ v.type ≠ .other

/-- Compiled probes return such values. -/
theorem Prober.sound {τ : Type} (p : Prober τ) : p.resolver.Sound := by
  intro t e s v hv
  have htype : v.type = t := p.typed t e s v hv
  have hv : (p.value t e s).1 = some v := hv
  by_cases ht : t = .other
  · rw [ht, value_other] at hv
    cases hv
  · obtain ⟨text, htext⟩ := p.exists_forValue ht e
    rw [value_eq htext] at hv
    obtain ⟨reading, -, hdecode⟩ := Option.bind_eq_some_iff.1 hv
    exact ⟨sound_of_decode hdecode, htype ▸ ht⟩

/-! ### Constants -/

namespace Constant

variable {r : Resolver σ} {resolve : Bool} {c : Constant} {s : σ}

/-- The value, if it is known, is sound and has a type other than `other`. -/
def Meaningful (c : Constant) : Prop :=
  ∀ v, c.progress.value? = some (some v) → v.Sound ∧ v.type ≠ .other

theorem Origin.meaningful {o : Origin} (h : o.Faithful) : o.constant.Meaningful :=
  fun v hv => ⟨o.sound h v hv, (o.fits h v hv).2⟩

theorem Meaningful.type (hc : c.Meaningful) : (c.type r s).2.1.Meaningful := by
  unfold Constant.type
  split
  · -- just the type is known now
    intro v hv
    cases hv
  · exact hc
  · exact hc

theorem Meaningful.value (hr : r.Sound) (hc : c.Meaningful) :
    (c.value r s).2.1.Meaningful := by
  unfold Constant.value
  split
  · exact hc
  · intro v hv
    obtain ⟨-, e, he⟩ := exists_of_askValue (Option.some.inj hv)
    exact hr _ e _ v he

/-- Of a printed constant the type is unknown only if it was unknown and nothing was resolved. -/
theorem type?_record_eq_none_iff (r : Resolver σ) (resolve : Bool) (c : Constant) (s : σ) :
    (c.record r resolve s).2.1.progress.type? = none ↔
      resolve = false ∧ c.typeKnown = false := by
  cases resolve with
  | true =>
    have hknown := valueKnown_record r c s
    obtain ⟨v, hv⟩ := Option.isSome_iff_exists.1 hknown
    obtain ⟨t, ht⟩ := Progress.type?_of_value? hv
    simp [ht]
  | false =>
    rw [record_unresolved]
    simp [typeKnown]

/-- And so is the value, or it is known to be missing. -/
theorem value?_record_join_eq_none_iff (r : Resolver σ) (resolve : Bool) (c : Constant) (s : σ) :
    (c.record r resolve s).2.1.progress.value?.join = none ↔
      resolve = false ∧ c.valueKnown = false ∨
        (c.record r resolve s).2.1.progress.value? = some none := by
  cases resolve with
  | true =>
    have hknown := valueKnown_record r c s
    obtain ⟨v, hv⟩ := Option.isSome_iff_exists.1 hknown
    simp [hv]
  | false =>
    rw [record_unresolved, valueKnown]
    cases c.progress.value? <;> simp

/-- What the object of a constant says, by what is `left` of the constant after it was printed: the
name and the text, the type unless it was unknown and nothing was resolved, and the value unless
that was unknown and nothing was resolved, or it is known to be missing. -/
def ShownAs (resolve : Bool) (c left : Constant) (e : Json.Tree) : Prop :=
  ∃ raw type value, e = .object [(bytes "name", .string c.name), (bytes "raw_value", raw),
      (bytes "type", type), (bytes "value", value)] ∧
    (raw = .null ↔ c.raw = none) ∧ (∀ text, c.raw = some text → raw = .string text) ∧
    (type = .null ↔ resolve = false ∧ c.typeKnown = false) ∧
    (∀ t, left.progress.type? = some t → type = .string t.name) ∧
    (value = .null ↔
      resolve = false ∧ c.valueKnown = false ∨ left.progress.value? = some none) ∧
    ∀ v, left.progress.value? = some (some v) → v.Denotes value

end Constant

/-! ### Objects -/

/-- A leaf that may be missing is read as null or as what it says. -/
theorem Json.reads_getD {α : Type} {f : α → Json.Leaf} {g : α → Json.Tree}
    (h : ∀ a, (f a).Reads (g a)) (o : Option α) :
    ((o.map f).getD .null).Reads ((o.map g).getD .null) := by
  cases o with
  | none => exact Json.reads_null
  | some a => exact h a

theorem Value.exists_reads_getD {o : Option Value}
    (h : ∀ v, o = some v → v.Sound ∧ v.type ≠ .other ∧ v.Exact) :
    ∃ t, ((o.map Value.leaf).getD .null).Reads t ∧ (t = .null ↔ o = none) ∧
      ∀ v, o = some v → v.Denotes t := by
  cases o with
  | none => exact ⟨.null, Json.reads_null, iff_of_true rfl rfl, nofun⟩
  | some v =>
    obtain ⟨hsound, hother, hexact⟩ := h v rfl
    obtain ⟨t, hdenotes, hreads⟩ := exists_denotes hsound hother hexact
    refine ⟨t, hreads, iff_of_false hdenotes.ne_null nofun, ?_⟩
    rintro _ ⟨⟩
    exact hdenotes

namespace Constant

variable {r : Resolver σ} {resolve : Bool} {c : Constant} {s : σ}

/-- The record of a constant is written as members that are read as the constant. -/
theorem exists_shownAs (hr : r.Sound) (hc : c.Meaningful)
    (hexact : ∀ v, (c.record r resolve s).1.value = some v → v.Exact) :
    ∃ ms : List ((Bytes × Json.Leaf) × Json.Tree),
      ms.map Prod.fst = (c.record r resolve s).1.members ∧ (∀ m ∈ ms, m.1.2.Reads m.2) ∧
      c.ShownAs resolve (c.record r resolve s).2.1 (.object (ms.map fun m => (m.1.1, m.2))) := by
  have hname : (c.record r resolve s).2.1.name = c.name := (recordLook r resolve).keeps c s
  have hraw : (c.record r resolve s).2.1.raw = c.raw :=
    record_keeps (P := fun d => d.raw = c.raw) (fun d s h => (raw_type r d s).trans h)
      (fun d s h => (raw_value r d s).trans h) rfl
  have hleft : (c.record r resolve s).2.1.Meaningful :=
    record_keeps (fun _ _ => Meaningful.type) (fun _ _ => Meaningful.value hr) hc
  have htype := type?_record_eq_none_iff r resolve c s
  have hvalue := value?_record_join_eq_none_iff r resolve c s
  -- the record shows what is left of the constant
  have hrecord : (c.record r resolve s).1 = ⟨c.name, c.raw,
      (c.record r resolve s).2.1.progress.type?,
      (c.record r resolve s).2.1.progress.value?.join⟩ := by
    rw [record_eq_knownRecord, knownRecord, hname, hraw]
  rw [hrecord] at hexact ⊢
  generalize (c.record r resolve s).2.1 = left at *
  obtain ⟨value, hreads, hnull, hdenotes⟩ := Value.exists_reads_getD (fun v hv =>
    have hv' := hleft v (Option.join_eq_some_iff.1 hv)
    ⟨hv'.1, hv'.2, hexact v hv⟩)
  refine ⟨[((bytes "name", .string c.name), .string c.name),
    ((bytes "raw_value", (c.raw.map Json.Leaf.string).getD .null),
      (c.raw.map Json.Tree.string).getD .null),
    ((bytes "type", (left.progress.type?.map fun t => Json.Leaf.string t.name).getD .null),
      (left.progress.type?.map fun t => Json.Tree.string t.name).getD .null),
    ((bytes "value", (left.progress.value?.join.map Value.leaf).getD .null), value)],
    rfl, ?_, _, _, _, rfl, ?_, ?_, ?_, ?_, hnull.trans hvalue, ?_⟩
  · simp only [List.forall_mem_cons]
    exact ⟨Json.reads_string _, Json.reads_getD Json.reads_string _,
      Json.reads_getD (fun t : TypeTag => Json.reads_string t.name) _, hreads,
      List.forall_mem_nil _⟩
  · cases c.raw <;> simp
  · intro text htext
    rw [htext]
    rfl
  · rw [← htype]
    cases left.progress.type? <;> simp
  · intro t ht
    rw [ht]
    rfl
  · intro v hv
    exact hdenotes v (Option.join_eq_some_iff.2 hv)

end Constant

/-! ### Catalogs -/

namespace Catalog

variable {r : Resolver σ} {k : Catalog}

/-- The records of constants are written as members that are read as the constants. -/
theorem exists_shownAs_visitAll (hr : r.Sound) {resolve : Bool} {cs : List Constant}
    (hcs : ∀ c ∈ cs, c.Meaningful) {s : σ}
    (hexact : ∀ rec ∈ (visitAll (Constant.recordLook r resolve) cs s).1, ∀ v,
      rec.value = some v → v.Exact) :
    ∃ oss : List (List ((Bytes × Json.Leaf) × Json.Tree)),
      (oss.map fun ms => ms.map Prod.fst) =
        (visitAll (Constant.recordLook r resolve) cs s).1.map Report.Record.members ∧
      (∀ ms ∈ oss, ∀ m ∈ ms, m.1.2.Reads m.2) ∧
      ∀ (i : ℕ) (c left : Constant) ms, cs[i]? = some c →
        (visitAll (Constant.recordLook r resolve) cs s).2.1[i]? = some left → oss[i]? = some ms →
        c.ShownAs resolve left (.object (ms.map fun m => (m.1.1, m.2))) := by
  induction cs generalizing s with
  | nil =>
    refine ⟨[], rfl, nofun, fun i c left ms hc => ?_⟩
    cases hc
  | cons c cs ih =>
    rw [List.forall_mem_cons] at hcs
    obtain ⟨hfirst, hrest⟩ := List.forall_mem_cons.1 hexact
    obtain ⟨ms, hms, hreads, hshown⟩ := Constant.exists_shownAs hr hcs.1 hfirst
    obtain ⟨oss, hoss, hallread, hallshown⟩ := ih hcs.2 hrest
    refine ⟨ms :: oss, congrArg₂ List.cons hms hoss, ?_, ?_⟩
    · exact List.forall_mem_cons.2 ⟨hreads, hallread⟩
    · intro i d left ms' hd hleft hms'
      cases i with
      | zero =>
        obtain rfl := Option.some.inj hd
        obtain rfl := Option.some.inj hleft
        obtain rfl := Option.some.inj hms'
        exact hshown
      | succ i => exact hallshown i d left ms' hd hleft hms'

/-- What is shown of meaningful constants is sound. -/
theorem sound_records (hr : r.Sound) (hmeaningful : ∀ c ∈ k.items, c.Meaningful)
    (hu : ∀ c ∈ k.items, c.IsUtf8) (resolve : Bool) (s : σ) :
    ∀ rec ∈ (k.records r resolve s).1, rec.Sound := by
  refine forall_seen_visitAll (Constant.recordLook r resolve)
    (P := fun c => c.Meaningful ∧ c.IsUtf8) (fun c s hc => ?_)
    (fun c hc => ⟨hmeaningful c hc, hu c hc⟩)
  have hleft : (c.record r resolve s).2.1.Meaningful :=
    Constant.record_keeps (fun _ _ => Constant.Meaningful.type)
      (fun _ _ => Constant.Meaningful.value hr) hc.1
  have hutf8 : (c.record r resolve s).2.1.IsUtf8 :=
    Constant.record_keeps (fun _ _ => Constant.IsUtf8.type) (fun _ _ => Constant.IsUtf8.value) hc.2
  exact (Constant.record_eq_knownRecord r resolve c s).symm ▸
    Constant.sound_knownRecord (fun v hv => (hleft v hv).1) hutf8

/-- **The printed catalog is read as its constants.**  Whatever the history of a catalog whose texts
are UTF-8: if no binary number is shown, then what is printed is a JSON text, and it is read as an
array with an object for each constant, in order, which says what is known of the constant after it
was printed. -/
theorem read?_report (hr : r.Sound) (hk : k.Reachable r) (hu : ∀ c ∈ k.items, c.IsUtf8)
    (resolve : Bool) (s : σ)
    (htext : ∀ rec ∈ (k.records r resolve s).1, ∀ text, rec.value = some (.string text) →
      Bytes.IsUtf8 text)
    (hexact : ∀ rec ∈ (k.records r resolve s).1, ∀ v, rec.value = some v →
      v.type.isReal = true → v.hasDecimalText = true) :
    let printed := k.report r resolve .json s
    Json.WellFormed printed.1 ∧
    ∃ elements, Json.read? printed.1 = some (.array elements) ∧ elements.length = k.size ∧
      printed.2.1.size = k.size ∧
      ∀ (i : ℕ) (c left : Constant) e, k.items[i]? = some c →
        printed.2.1.items[i]? = some left → elements[i]? = some e → c.ShownAs resolve left e := by
  intro printed
  have hmeaningful : ∀ c ∈ k.items, c.Meaningful :=
    hk.forall_items (fun _ => Constant.Origin.meaningful) (fun _ _ => Constant.Meaningful.type)
      (fun _ _ => Constant.Meaningful.value hr)
  obtain ⟨oss, hoss, hreads, hshown⟩ := exists_shownAs_visitAll hr hmeaningful hexact
  have hprinted : printed.1 = Json.document (oss.map fun ms => ms.map Prod.fst) := by
    rw [hoss]
    rfl
  have hlength : oss.length = k.size := by
    have hmembers := congrArg List.length hoss
    rw [List.length_map, List.length_map, length_seen_visitAll] at hmembers
    exact hmembers
  refine ⟨?_, oss.map fun ms => .object (ms.map fun m => (m.1.1, m.2)), ?_, ?_, ?_, ?_⟩
  · refine ⟨_, Json.isDocument_document ?_⟩
    have hvalid : ∀ rec ∈ (k.records r resolve s).1, Json.Object.Valid rec.members := by
      intro rec hrec
      refine (sound_records hr hmeaningful hu resolve s rec hrec).valid_iff.2 fun v hv => ?_
      exact Value.Exact.writable (hexact rec hrec v hv) fun text ht =>
        htext rec hrec text (ht ▸ hv)
    exact List.forall_mem_map.2 hvalid
  · rw [hprinted]
    exact Json.read?_document hreads
  · rw [List.length_map, hlength]
  · have hnames :=
      congrArg List.length (map_name_visitAll (Constant.recordLook r resolve) k.items s)
    rw [List.length_map, List.length_map] at hnames
    exact hnames
  · intro i c left e hc hleft he
    obtain ⟨ms, hms, rfl⟩ := List.getElem?_map .. ▸ he |> Option.map_eq_some_iff.1
    exact hshown i c left ms hc hleft hms

/-- A dump with a floating literal, sums of integers, strings and addresses, and a statement. -/
def decodedDump : Bytes :=
  bytes "#define PI 003.14\n#define SUM (1-4)\n#define MSG A B\n" ++
    bytes "#define PTR (P+1)\n#define RET return\n"

/-- A message with a quotation mark, a newline, a control byte and a letter that is not ASCII. -/
def decodedMessage : Bytes := bytes "\"\n\u0001\u00e9"

/-- The five constants of the dump, resolved, are read back. -/
theorem read?_report_resolved :
    let r : Resolver Unit := Answers.resolver
      { types := [(bytes "SUM", .int), (bytes "MSG", .string), (bytes "PTR", .pointer)],
        values := [(bytes "SUM", .int (-3)), (bytes "MSG", .string decodedMessage),
          (bytes "PTR", .pointer 255)] }
    let k := (Discovery.ofDump Selector.default decodedDump).1
    ∃ elements, Json.read? (k.report r true .json ()).1 = some (.array elements) ∧
      elements.length = 5 := by
  intro r k
  have hr : r.Sound := by
    intro t e s v hv
    have hv : [(bytes "SUM", Value.int (-3)), (bytes "MSG", .string decodedMessage),
      (bytes "PTR", .pointer 255)].lookup e = some v := hv
    obtain ⟨left, right, hmem, -⟩ := List.lookup_eq_some_iff.1 hv
    have hmem : (e, v) ∈ [(bytes "SUM", Value.int (-3)), (bytes "MSG", .string decodedMessage),
      (bytes "PTR", .pointer 255)] := by
      rw [hmem]
      simp
    simp only [List.mem_cons, Prod.mk.injEq, List.not_mem_nil, or_false] at hmem
    rcases hmem with ⟨-, rfl⟩ | ⟨-, rfl⟩ | ⟨-, rfl⟩ <;> exact ⟨trivial, nofun⟩
  have hu : ∀ c ∈ k.items, c.IsUtf8 := by
    have hascii : ∀ c ∈ k.items,
        Bytes.isAscii c.name = true ∧ Bytes.isAscii (c.raw.getD []) = true := by decide
    intro c hc
    refine ⟨Bytes.isUtf8_of_isAscii (hascii c hc).1, fun raw hraw => ?_⟩
    have htext := (hascii c hc).2
    rw [hraw] at htext
    exact Bytes.isUtf8_of_isAscii htext
  have hvalues : ∀ rec ∈ (k.records r true ()).1, rec.value ∈
      [some (.decimal .double (bytes "003.14")), some (.int (-3)), some (.string decodedMessage),
        some (.pointer 255), none] := by decide
  have htext : ∀ rec ∈ (k.records r true ()).1, ∀ text, rec.value = some (.string text) →
      Bytes.IsUtf8 text := by
    intro rec hrec text hvalue
    have hmem := hvalues rec hrec
    rw [hvalue] at hmem
    obtain rfl : text = decodedMessage := by simpa using hmem
    exact ⟨['"', '\n', '\u0001', '\u00e9'], by decide⟩
  have hexact : ∀ rec ∈ (k.records r true ()).1, ∀ v, rec.value = some v →
      v.type.isReal = true → v.hasDecimalText = true := by
    intro rec hrec v hvalue hreal
    have hmem := hvalues rec hrec
    rw [hvalue] at hmem
    simp only [List.mem_cons, Option.some.injEq, List.not_mem_nil, or_false, reduceCtorEq] at hmem
    rcases hmem with rfl | rfl | rfl | rfl
    · rfl
    all_goals cases hreal
  obtain ⟨-, elements, hread, hlength, -⟩ :=
    read?_report hr (.discovered Selector.default decodedDump) hu true () htext hexact
  exact ⟨elements, hread, hlength⟩

end Catalog

end MacroConstants
