import MacroConstants.Literal
import MacroConstants.Proofs.Bytes
import Mathlib.Data.Nat.Digits.Defs

/-!
# What literals spell

The texts whose value is plain without a compiler, as a grammar of three shapes, and the reader of
literals compared with it.

* `Numeral.value_eq_denoted` : reading digits one after the other gives the number they denote by
  their places.
* `Literal.Integral`, `Literal.Quoted`, `Literal.Floating` : the three shapes, with what they say.
* `Literal.shape_unique` : no text has two of them.
* `Literal.read?_eq_some_iff` : a text is read exactly as the value it spells.
* `Literal.read?_classified` : **the grammar decides what is read**, in whatever order the shapes
  are tried.
-/

namespace MacroConstants

/-! ### Numbers by their places -/

namespace Numeral

/-- The value of a digit. -/
def digit (d : UInt8) : ℕ := d.toNat - (ascii '0').toNat

/-- The number that digits denote: each counts for its value times a power of the base, the last
one for its value alone. -/
def denoted (base : ℕ) (digits : Bytes) : ℕ := Nat.ofDigits base (digits.reverse.map digit)

theorem value_concat (base : ℕ) (digits : Bytes) (d : UInt8) :
    value base (digits ++ [d]) = value base digits * base + digit d := by
  simp [value, digit]

theorem denoted_concat (base : ℕ) (digits : Bytes) (d : UInt8) :
    denoted base (digits ++ [d]) = digit d + base * denoted base digits := by
  simp [denoted, Nat.ofDigits_cons]

/-- Reading digits from the left gives the number they denote. -/
theorem value_eq_denoted (base : ℕ) (digits : Bytes) :
    value base digits = denoted base digits := by
  induction digits using List.reverseRecOn with
  | nil => rfl
  | append_singleton digits d ih =>
    rw [value_concat, denoted_concat, ih, Nat.mul_comm, Nat.add_comm]

end Numeral

namespace Literal

open Bytes

variable {raw s text : Bytes} {n : ℕ} {i : ℤ} {v : Value}

/-! ### The three shapes -/

/-- `[1-9][0-9]*` -/
def DecimalDigits (s : Bytes) : Prop :=
  ∃ d ds, s = d :: ds ∧ d ≠ ascii '0' ∧ ∀ b ∈ d :: ds, isDigit b = true

/-- `0[0-7]*` -/
def OctalDigits (s : Bytes) : Prop := ∃ ds, s = ascii '0' :: ds ∧ ∀ b ∈ ds, isOctal b = true

/-- Digits and their number: base eight after a leading zero, else base ten. -/
inductive Magnitude (s : Bytes) : ℕ → Prop
  | decimal : DecimalDigits s → Magnitude s (Numeral.denoted 10 s)
  | octal : OctalDigits s → Magnitude s (Numeral.denoted 8 s)

/-- Digits, perhaps after a minus, and the integer they denote. -/
inductive Integral : Bytes → ℤ → Prop
  | plain {s : Bytes} {n : ℕ} : Magnitude s n → Integral s n
  | minus {s : Bytes} {n : ℕ} : Magnitude s n → Integral (ascii '-' :: s) (-n)

/-- A run of letters, digits and underscores between double quotes. -/
inductive Quoted : Bytes → Bytes → Prop
  | mk {s : Bytes} : s ≠ [] → (∀ b ∈ s, isWord b = true) →
      Quoted (ascii '"' :: (s ++ [ascii '"'])) s

/-- `[0-9]+\.[0-9]+` -/
def Pointed (text : Bytes) : Prop :=
  ∃ whole fraction, text = whole ++ ascii '.' :: fraction ∧ whole ≠ [] ∧ fraction ≠ [] ∧
    ∀ b ∈ whole ++ fraction, isDigit b = true

/-- Digits, a point and digits; a suffix makes it a `float`. -/
inductive Floating : Bytes → TypeTag → Bytes → Prop
  | double {text : Bytes} : Pointed text → Floating text .double text
  | float {text : Bytes} {suffix : UInt8} : Pointed text →
      suffix = ascii 'f' ∨ suffix = ascii 'F' → Floating (text ++ [suffix]) .float text

/-- The three shapes. -/
inductive Shape where
  | integral
  | quoted
  | floating
  deriving DecidableEq

/-- Whether a text has a shape, whatever it says. -/
def Shape.Fits (raw : Bytes) : Shape → Prop
  | integral => ∃ i, Integral raw i
  | quoted => ∃ s, Quoted raw s
  | floating => ∃ t text, Floating raw t text

/-- The integers that a signed number of 64 bits can be. -/
def InRange (i : ℤ) : Prop := Int64.minValue.toInt ≤ i ∧ i ≤ Int64.maxValue.toInt

/-- The value that a text spells in a shape: an integer has to be in range. -/
inductive Spells (raw : Bytes) : Shape → Value → Prop
  | integer {i : ℤ} : Integral raw i → InRange i → Spells raw .integral (.int i.toInt64)
  | string {s : Bytes} : Quoted raw s → Spells raw .quoted (.string s)
  | real {t : TypeTag} {text : Bytes} : Floating raw t text →
      Spells raw .floating (.decimal t text)

theorem Spells.fits {a : Shape} (h : Spells raw a v) : a.Fits raw := by
  cases h with
  | integer h => exact ⟨_, h⟩
  | string h => exact ⟨_, h⟩
  | real h => exact ⟨_, _, h⟩

/-! ### No text has two shapes -/

theorem isDigit_of_isOctal {b : UInt8} (h : isOctal b = true) : isDigit b = true := by
  simp only [isOctal, isDigit, Bool.and_eq_true, decide_eq_true_eq, UInt8.le_iff_toNat_le] at h ⊢
  have h7 : (ascii '7').toNat = 55 := rfl
  have h9 : (ascii '9').toNat = 57 := rfl
  omega

theorem Magnitude.isDigit (h : Magnitude s n) : ∀ b ∈ s, isDigit b = true := by
  cases h with
  | decimal h =>
    obtain ⟨d, ds, rfl, -, hds⟩ := h
    exact hds
  | octal h =>
    obtain ⟨ds, rfl, hds⟩ := h
    exact List.forall_mem_cons.2 ⟨rfl, fun b hb => isDigit_of_isOctal (hds b hb)⟩

theorem Integral.mem (h : Integral raw i) : ∀ b ∈ raw, b = ascii '-' ∨ isDigit b = true := by
  cases h with
  | plain h => exact fun b hb => .inr (h.isDigit b hb)
  | minus h => exact List.forall_mem_cons.2 ⟨.inl rfl, fun b hb => .inr (h.isDigit b hb)⟩

theorem Quoted.head? (h : Quoted raw s) : raw.head? = some (ascii '"') := by
  cases h
  rfl

/-- A floating literal starts with a digit and has a point. -/
theorem Floating.starts {t : TypeTag} (h : Floating raw t text) :
    (∀ b ∈ raw.head?, isDigit b = true) ∧ ascii '.' ∈ raw := by
  have key : ∀ {text tail : Bytes}, Pointed text →
      (∀ b ∈ (text ++ tail).head?, isDigit b = true) ∧ ascii '.' ∈ text ++ tail := by
    rintro _ tail ⟨whole, fraction, rfl, hne, -, hall⟩
    obtain ⟨d, whole, rfl⟩ := List.exists_cons_of_ne_nil hne
    refine ⟨?_, by simp⟩
    simpa using hall d (by simp)
  cases h with
  | double h => simpa using @key _ [] h
  | float h => exact key h

/-- The shape a text has if it has any: a quote or a point gives it away. -/
def Shape.of (raw : Bytes) : Shape :=
  if raw.head? = some (ascii '"') then .quoted
  else if ascii '.' ∈ raw then .floating
  else .integral

theorem Shape.Fits.eq_of {a : Shape} (h : a.Fits raw) : a = Shape.of raw := by
  unfold Shape.of
  cases a with
  | quoted =>
    obtain ⟨s, h⟩ := h
    rw [if_pos h.head?]
  | floating =>
    obtain ⟨t, text, h⟩ := h
    have hquote : raw.head? ≠ some (ascii '"') := by
      intro hq
      have := h.starts.1 _ hq
      revert this
      decide
    rw [if_neg hquote, if_pos h.starts.2]
  | integral =>
    obtain ⟨i, h⟩ := h
    have hquote : raw.head? ≠ some (ascii '"') := by
      intro hq
      have := h.mem _ (List.mem_of_head? hq)
      revert this
      decide
    have hpoint : ascii '.' ∉ raw := by
      intro hp
      have := h.mem _ hp
      revert this
      decide
    rw [if_neg hquote, if_neg hpoint]

/-- No text has two shapes. -/
theorem shape_unique {a b : Shape} (ha : a.Fits raw) (hb : b.Fits raw) : a = b :=
  ha.eq_of.trans hb.eq_of.symm

/-! ### Each reader reads its shape -/

theorem magnitude?_eq_some_iff : magnitude? s = some n ↔ Magnitude s n := by
  constructor
  · intro h
    cases s with
    | nil => cases h
    | cons d ds =>
      rw [magnitude?] at h
      split at h
      · rename_i hd
        obtain ⟨hall, hn⟩ := Option.ite_none_right_eq_some.1 h
        rw [List.all_eq_true, List.forall_mem_cons] at hall
        rw [← Option.some.inj hn, Numeral.value_eq_denoted]
        exact .octal ⟨ds, hd ▸ rfl, hall.2⟩
      · rename_i hd
        obtain ⟨hall, hn⟩ := Option.ite_none_right_eq_some.1 h
        rw [← Option.some.inj hn, Numeral.value_eq_denoted]
        exact .decimal ⟨d, ds, rfl, hd, List.all_eq_true.1 hall⟩
  · intro h
    cases h with
    | decimal h =>
      obtain ⟨d, ds, rfl, hd, hall⟩ := h
      rw [magnitude?, if_neg hd, if_pos (List.all_eq_true.2 hall), Numeral.value_eq_denoted]
    | octal h =>
      obtain ⟨ds, rfl, hall⟩ := h
      have hall' : (ascii '0' :: ds).all isOctal = true :=
        List.all_eq_true.2 (List.forall_mem_cons.2 ⟨rfl, hall⟩)
      rw [magnitude?, if_pos rfl, if_pos hall', Numeral.value_eq_denoted]

/-- Digits do not start with a minus. -/
theorem splitSign_of_magnitude (h : Magnitude s n) : splitSign s = (false, s) := by
  cases s with
  | nil => rfl
  | cons b s =>
    have hb : b ≠ ascii '-' := by
      rintro rfl
      have := h.isDigit _ List.mem_cons_self
      revert this
      decide
    rw [splitSign, if_neg hb]

/-- The integer of a magnitude, negated or not. -/
def withSign (negative : Bool) (n : ℕ) : ℤ := if negative then -n else n

theorem integral_iff :
    Integral raw i ↔
      ∃ n, Magnitude (splitSign raw).2 n ∧ i = withSign (splitSign raw).1 n := by
  constructor
  · intro h
    cases h with
    | plain h =>
      rw [splitSign_of_magnitude h]
      exact ⟨_, h, rfl⟩
    | minus h => exact ⟨_, h, rfl⟩
  · rintro ⟨n, h, rfl⟩
    cases raw with
    | nil => exact .plain h
    | cons b raw =>
      rw [splitSign] at h ⊢
      split at h
      · rename_i hb
        rw [if_pos hb]
        exact hb ▸ .minus h
      · rename_i hb
        rw [if_neg hb]
        exact .plain h

theorem fits_eq_true_iff : fits i = true ↔ InRange i := by
  simp only [fits, InRange, Bool.and_eq_true, decide_eq_true_eq, Int64.toInt_minValue,
    Int64.toInt_maxValue]
  omega

theorem integer?_eq_some_iff :
    integer? raw = some v ↔ ∃ i, Integral raw i ∧ InRange i ∧ v = .int i.toInt64 := by
  simp only [integral_iff, ← magnitude?_eq_some_iff, ← fits_eq_true_iff]
  unfold integer?
  dsimp only
  constructor
  · intro h
    split at h
    · cases h
    · rename_i n hn
      obtain ⟨hfits, hv⟩ := Option.ite_none_right_eq_some.1 h
      exact ⟨_, ⟨n, hn, rfl⟩, hfits, (Option.some.inj hv).symm⟩
  · rintro ⟨_, ⟨n, hn, rfl⟩, hfits, rfl⟩
    rw [hn]
    dsimp only
    exact if_pos hfits

theorem quoted?_eq_some_iff :
    quoted? raw = some s ↔ raw = ascii '"' :: (s ++ [ascii '"']) := by
  constructor
  · intro h
    cases raw with
    | nil => cases h
    | cons b bs =>
      obtain ⟨⟨rfl, hlast⟩, hs⟩ := Option.ite_none_right_eq_some.1 h
      obtain rfl := Option.some.inj hs
      rw [List.dropLast_append_getLast? _ hlast]
  · rintro rfl
    simp [quoted?]

theorem string?_eq_some_iff : string? raw = some v ↔ ∃ s, Quoted raw s ∧ v = .string s := by
  unfold string?
  constructor
  · intro h
    split at h
    · cases h
    · rename_i s hs
      obtain ⟨hword, hv⟩ := Option.ite_none_right_eq_some.1 h
      obtain ⟨hne, hall⟩ : s ≠ [] ∧ ∀ b ∈ s, isWord b = true := by simpa using hword
      rw [quoted?_eq_some_iff.1 hs]
      exact ⟨s, .mk hne hall, (Option.some.inj hv).symm⟩
  · rintro ⟨s, h, rfl⟩
    cases h with
    | mk hne hall =>
      rw [quoted?_eq_some_iff.2 rfl]
      exact if_pos (by simpa using ⟨hne, hall⟩)

/-- The text of a floating literal is digits, a point and digits. -/
theorem isPointed_iff : isPointed text = true ↔ Pointed text := by
  unfold isPointed
  dsimp only
  constructor
  · intro h
    split at h
    · cases h
    · rename_i point fraction hd
      simp only [Bool.and_eq_true, Bool.not_eq_true', List.isEmpty_eq_false_iff, beq_iff_eq] at h
      obtain ⟨⟨⟨rfl, hw⟩, hf⟩, hall⟩ := h
      refine ⟨text.takeWhile isDigit, fraction, ?_, hw, hf, ?_⟩
      · rw [← hd, List.takeWhile_append_dropWhile]
      · intro b hb
        rcases List.mem_append.1 hb with hb | hb
        · exact List.mem_takeWhile_imp hb
        · exact List.all_eq_true.1 hall b hb
  · rintro ⟨whole, fraction, rfl, hw, hf, hall⟩
    rw [List.forall_mem_append] at hall
    have hpoint : ∀ b ∈ (ascii '.' :: fraction).head?, isDigit b = false := by
      rintro _ ⟨⟩
      rfl
    rw [takeWhile_append hall.1 hpoint, dropWhile_append hall.1 hpoint]
    simpa [hw, hf] using hall.2

theorem splitSuffix_concat {suffix : UInt8} (h : suffix = ascii 'f' ∨ suffix = ascii 'F') :
    splitSuffix (text ++ [suffix]) = (true, text) := by
  rw [splitSuffix, List.getLast?_concat, List.dropLast_concat]
  exact if_pos h

/-- A text either is a shorter one with a suffix or has no suffix. -/
theorem splitSuffix_cases (raw : Bytes) :
    (∃ text suffix, raw = text ++ [suffix] ∧ (suffix = ascii 'f' ∨ suffix = ascii 'F')) ∨
      splitSuffix raw = (false, raw) := by
  rcases List.eq_nil_or_concat raw with rfl | ⟨text, suffix, rfl⟩
  · exact .inr rfl
  · rw [List.concat_eq_append]
    by_cases h : suffix = ascii 'f' ∨ suffix = ascii 'F'
    · exact .inl ⟨text, suffix, rfl, h⟩
    · refine .inr ?_
      rw [splitSuffix, List.getLast?_concat]
      exact if_neg h

theorem Pointed.mem (h : Pointed text) : ∀ b ∈ text, b = ascii '.' ∨ isDigit b = true := by
  obtain ⟨whole, fraction, rfl, -, -, hall⟩ := h
  intro b hb
  rcases List.mem_append.1 hb with hb | hb
  · exact .inr (hall b (by simp [hb]))
  · rcases List.mem_cons.1 hb with rfl | hb
    · exact .inl rfl
    · exact .inr (hall b (by simp [hb]))

/-- Digits and a point have no suffix. -/
theorem splitSuffix_of_pointed (h : Pointed text) : splitSuffix text = (false, text) := by
  refine (splitSuffix_cases text).resolve_left ?_
  rintro ⟨init, suffix, rfl, hsuffix⟩
  have hmem := h.mem suffix (by simp)
  rcases hsuffix with rfl | rfl <;> revert hmem <;> decide

theorem floating_iff {t : TypeTag} :
    Floating raw t text ↔
      Pointed text ∧ text = (splitSuffix raw).2 ∧
        t = if (splitSuffix raw).1 then .float else .double := by
  constructor
  · intro h
    cases h with
    | double h =>
      rw [splitSuffix_of_pointed h]
      exact ⟨h, rfl, rfl⟩
    | float h hsuffix =>
      rw [splitSuffix_concat hsuffix]
      exact ⟨h, rfl, rfl⟩
  · rintro ⟨h, rfl, rfl⟩
    rcases splitSuffix_cases raw with ⟨text, suffix, rfl, hsuffix⟩ | hnone
    · rw [splitSuffix_concat hsuffix] at h ⊢
      exact .float h hsuffix
    · rw [hnone] at h ⊢
      exact .double h

theorem real?_eq_some_iff :
    real? raw = some v ↔ ∃ t text, Floating raw t text ∧ v = .decimal t text := by
  simp only [floating_iff, ← isPointed_iff]
  unfold real?
  dsimp only
  constructor
  · intro h
    obtain ⟨hpointed, hv⟩ := Option.ite_none_right_eq_some.1 h
    exact ⟨_, _, ⟨hpointed, rfl, rfl⟩, (Option.some.inj hv).symm⟩
  · rintro ⟨_, _, ⟨hpointed, rfl, rfl⟩, rfl⟩
    exact if_pos hpointed

/-! ### The shapes together -/

/-- The reader of a shape. -/
def Shape.reader : Shape → Bytes → Option Value
  | integral => integer?
  | quoted => string?
  | floating => real?

theorem reader_eq_some_iff {a : Shape} : a.reader raw = some v ↔ Spells raw a v := by
  constructor
  · intro h
    cases a with
    | integral =>
      obtain ⟨i, hi, hr, rfl⟩ := integer?_eq_some_iff.1 h
      exact .integer hi hr
    | quoted =>
      obtain ⟨s, hs, rfl⟩ := string?_eq_some_iff.1 h
      exact .string hs
    | floating =>
      obtain ⟨t, text, hf, rfl⟩ := real?_eq_some_iff.1 h
      exact .real hf
  · intro h
    cases h with
    | integer hi hr => exact integer?_eq_some_iff.2 ⟨_, hi, hr, rfl⟩
    | string hs => exact string?_eq_some_iff.2 ⟨_, hs, rfl⟩
    | real hf => exact real?_eq_some_iff.2 ⟨_, _, hf, rfl⟩

theorem spells_unique {a b : Shape} {w : Value} (hv : Spells raw a v) (hw : Spells raw b w) :
    v = w := by
  obtain rfl := shape_unique hv.fits hw.fits
  rw [← reader_eq_some_iff] at hv hw
  exact Option.some.inj (hv.symm.trans hw)

/-- In whatever order the shapes are tried, a text is read as the value it spells. -/
theorem findSome?_reader_iff {order : List Shape} (hall : ∀ a, a ∈ order) :
    order.findSome? (·.reader raw) = some v ↔ ∃ a, Spells raw a v := by
  constructor
  · intro h
    obtain ⟨a, -, ha⟩ := List.exists_of_findSome?_eq_some h
    exact ⟨a, reader_eq_some_iff.1 ha⟩
  · rintro ⟨a, ha⟩
    cases h : order.findSome? (·.reader raw) with
    | none =>
      have := List.findSome?_eq_none_iff.1 h a (hall a)
      rw [reader_eq_some_iff.2 ha] at this
      cases this
    | some w =>
      obtain ⟨b, -, hb⟩ := List.exists_of_findSome?_eq_some h
      rw [spells_unique ha (reader_eq_some_iff.1 hb)]

theorem read?_eq_findSome? (raw : Bytes) :
    read? raw = [Shape.integral, .quoted, .floating].findSome? (·.reader raw) := by
  unfold read?
  cases h : integer? raw <;> cases h' : string? raw <;> cases h'' : real? raw <;>
    simp [Shape.reader, h, h', h'']

/-- A text is read exactly as the value it spells. -/
theorem read?_eq_some_iff : read? raw = some v ↔ ∃ a, Spells raw a v := by
  rw [read?_eq_findSome?]
  exact findSome?_reader_iff fun a => by cases a <;> simp

theorem toInt_toInt64 (h : InRange i) : i.toInt64.toInt = i := by
  obtain ⟨hlow, hhigh⟩ := h
  rw [Int64.toInt_minValue] at hlow
  rw [Int64.toInt_maxValue] at hhigh
  exact Int64.toInt_ofInt_of_le (by omega) (by omega)

/-- What is found in a text is what the grammar gives it. -/
structure Classified (raw : Bytes) (found : Option Value) : Prop where
  integer : ∀ k : Int64, found = some (.int k) ↔ ∃ i, Integral raw i ∧ InRange i ∧ k.toInt = i
  string : ∀ s, found = some (.string s) ↔ Quoted raw s
  real : ∀ t text, found = some (.decimal t text) ↔ Floating raw t text
  nothing : found = none ↔
    (∀ i, Integral raw i → ¬ InRange i) ∧ (∀ s, ¬ Quoted raw s) ∧ ∀ t text, ¬ Floating raw t text

/-- **The grammar decides what is read**: a text has at most one of the three shapes, and in
whatever order these are tried it is read as what it says in that shape. -/
theorem read?_classified (raw : Bytes) :
    Classified raw (read? raw) ∧ (∀ a b : Shape, a.Fits raw → b.Fits raw → a = b) ∧
      ∀ order : List Shape, (∀ a, a ∈ order) → order.findSome? (·.reader raw) = read? raw := by
  refine ⟨⟨fun k => ?_, fun s => ?_, fun t text => ?_, ?_⟩, fun _ _ => shape_unique, ?_⟩
  · rw [read?_eq_some_iff]
    constructor
    · rintro ⟨a, h⟩
      cases h with
      | integer h hr => exact ⟨_, h, hr, toInt_toInt64 hr⟩
    · rintro ⟨i, h, hr, rfl⟩
      have hk := Spells.integer h hr
      rw [show k.toInt.toInt64 = k from Int64.ofInt_toInt k] at hk
      exact ⟨_, hk⟩
  · rw [read?_eq_some_iff]
    exact ⟨fun ⟨_, h⟩ => by cases h; assumption, fun h => ⟨_, .string h⟩⟩
  · rw [read?_eq_some_iff]
    exact ⟨fun ⟨_, h⟩ => by cases h; assumption, fun h => ⟨_, .real h⟩⟩
  · rw [Option.eq_none_iff_forall_ne_some]
    simp only [ne_eq, read?_eq_some_iff]
    constructor
    · intro h
      exact ⟨fun i hi hr => h _ ⟨_, .integer hi hr⟩, fun s hs => h _ ⟨_, .string hs⟩,
        fun t text hf => h _ ⟨_, .real hf⟩⟩
    · rintro ⟨hi, hs, hf⟩ v ⟨a, h⟩
      cases h with
      | integer h hr => exact hi _ h hr
      | string h => exact hs _ h
      | real h => exact hf _ _ h
  · intro order hall
    refine Option.ext fun v => ?_
    rw [findSome?_reader_iff hall, read?_eq_some_iff]

example : read? (bytes "-0777") = some (.int (-511)) := by decide

end Literal

end MacroConstants
