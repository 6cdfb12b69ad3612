import MacroConstants.Bytes
import Mathlib.Tactic.Common

/-!
# UTF-8

A byte below 128 stands for itself wherever it stands, so a text may be cut at such a byte, and
such bytes may be written in another way, without touching the characters around them.

* `Bytes.IsUtf8` : the bytes of some characters, `Bytes.isAscii` : bytes below 128 only.
* `Bytes.isUtf8_append_cons_iff`, `Bytes.isUtf8_append_left_iff` : cutting.
* `Bytes.isUtf8_flatMap_iff` : **writing ASCII in another way keeps and reflects UTF-8.**
-/

namespace MacroConstants.Bytes

/-- The UTF-8 bytes of characters. -/
def utf8 (cs : List Char) : Bytes := cs.flatMap String.utf8EncodeChar

/-- The bytes of some characters. -/
def IsUtf8 (s : Bytes) : Prop := ∃ cs, s = utf8 cs

/-- Bytes of ASCII characters only. -/
def isAscii (s : Bytes) : Bool := s.all (· < 0x80)

variable {s t u : Bytes} {b : UInt8} {c : Char}

@[simp] theorem isAscii_nil : isAscii [] = true := rfl

@[simp] theorem isAscii_cons : isAscii (b :: s) = (decide (b < 0x80) && isAscii s) := rfl

@[simp] theorem isAscii_append : isAscii (s ++ t) = (isAscii s && isAscii t) := List.all_append

theorem isAscii_iff : isAscii s = true ↔ ∀ b ∈ s, b < 0x80 := by simp [isAscii]

/-- A property of bytes may be checked at all 256 of them. -/
theorem forall_byte {P : UInt8 → Prop} (h : ∀ n < 256, P (UInt8.ofNat n)) (b : UInt8) : P b := by
  have hb := h b.toNat b.toNat_lt
  rwa [UInt8.ofNat_toNat] at hb

theorem all_imp {q r : UInt8 → Bool} (hqr : ∀ b, q b = true → r b = true)
    (h : s.all q = true) : s.all r = true :=
  List.all_eq_true.2 fun b hb => hqr b (List.all_eq_true.1 h b hb)

/-! ### Characters -/

/-- A character is one byte below 128, its number, or several bytes, none of which is. -/
theorem utf8EncodeChar_cases (c : Char) :
    (∃ b < 0x80, b.toNat = c.toNat ∧ String.utf8EncodeChar c = [b]) ∨
    (0x80 ≤ c.toNat ∧ ∀ b ∈ String.utf8EncodeChar c, ¬b < 0x80) := by
  have hc : c.val.toNat = c.toNat := rfl
  by_cases h : c.toNat ≤ 0x7f
  · refine .inl ⟨UInt8.ofNat c.toNat, ?_, ?_, ?_⟩
    · simp [UInt8.lt_iff_toNat_lt]; omega
    · simp; omega
    · simp only [String.utf8EncodeChar, hc, h, ↓reduceIte]
  · refine .inr ⟨by omega, ?_⟩
    simp only [String.utf8EncodeChar, hc, h, ↓reduceIte]
    split
    · simp [UInt8.lt_iff_toNat_lt]; omega
    · split
      · simp [UInt8.lt_iff_toNat_lt]; omega
      · simp [UInt8.lt_iff_toNat_lt]; omega

/-- Every byte below 128 is a character. -/
theorem exists_utf8EncodeChar_eq (h : b < 0x80) :
    ∃ c : Char, b.toNat = c.toNat ∧ String.utf8EncodeChar c = [b] := by
  have hc : (Char.ofUInt8 b).toNat = b.toNat := UInt8.toNat_toUInt32 b
  rcases utf8EncodeChar_cases (Char.ofUInt8 b) with ⟨b', -, hb', he⟩ | ⟨hge, -⟩
  · obtain rfl : b' = b := UInt8.toNat_inj.1 (hb'.trans hc)
    exact ⟨_, hc.symm, he⟩
  · have hb : b.toNat < 0x80 := UInt8.lt_iff_toNat_lt.1 h
    omega

/-! ### Texts -/

theorem isUtf8_nil : IsUtf8 [] := ⟨[], rfl⟩

theorem IsUtf8.append (hs : IsUtf8 s) (ht : IsUtf8 t) : IsUtf8 (s ++ t) := by
  obtain ⟨cs, rfl⟩ := hs
  obtain ⟨ds, rfl⟩ := ht
  exact ⟨cs ++ ds, List.flatMap_append.symm⟩

theorem isUtf8_utf8EncodeChar (c : Char) : IsUtf8 (String.utf8EncodeChar c) :=
  ⟨[c], by simp [utf8]⟩

theorem isUtf8_of_isAscii (h : isAscii s = true) : IsUtf8 s := by
  induction s with
  | nil => exact isUtf8_nil
  | cons b s ih =>
    simp only [isAscii_cons, Bool.and_eq_true, decide_eq_true_eq] at h
    obtain ⟨c, -, hc⟩ := exists_utf8EncodeChar_eq h.1
    exact (hc ▸ isUtf8_utf8EncodeChar c : IsUtf8 [b]).append (ih h.2)

theorem IsUtf8.cons (hs : IsUtf8 s) (hb : b < 0x80) : IsUtf8 (b :: s) :=
  (isUtf8_of_isAscii (s := [b]) (by simpa using hb)).append hs

/-- A text may be cut at a byte below 128. -/
theorem IsUtf8.of_append_cons (h : IsUtf8 (s ++ b :: t)) (hb : b < 0x80) : IsUtf8 s ∧ IsUtf8 t := by
  obtain ⟨cs, hcs⟩ := h
  induction cs generalizing s with
  | nil => simp [utf8] at hcs
  | cons c cs ih =>
    have hcs : s ++ b :: t = String.utf8EncodeChar c ++ utf8 cs := hcs
    rcases List.append_eq_append_iff.1 hcs with ⟨u, hc, ht⟩ | ⟨u, rfl, ht⟩
    · rcases u with _ | ⟨b', u⟩
      · rw [List.append_nil] at hc
        exact ⟨hc ▸ isUtf8_utf8EncodeChar c, (ih (s := []) ht).2⟩
      · -- The byte is in the character, which is therefore this byte alone.
        obtain ⟨rfl, rfl⟩ : b = b' ∧ t = u ++ utf8 cs := by simpa using ht
        rcases utf8EncodeChar_cases c with ⟨_, -, -, he⟩ | ⟨-, hne⟩
        · obtain ⟨rfl, -, rfl⟩ := List.append_eq_singleton_iff.1 (hc.symm.trans he) |>.resolve_right
            (by simp)
          exact ⟨isUtf8_nil, cs, rfl⟩
        · exact absurd hb (hne b (by simp [hc]))
    · obtain ⟨hu, ht⟩ := ih ht.symm
      exact ⟨(isUtf8_utf8EncodeChar c).append hu, ht⟩

theorem isUtf8_append_cons_iff (hb : b < 0x80) : IsUtf8 (s ++ b :: t) ↔ IsUtf8 s ∧ IsUtf8 t :=
  ⟨fun h => h.of_append_cons hb, fun ⟨hs, ht⟩ => hs.append (ht.cons hb)⟩

theorem isUtf8_append_left_iff (hs : isAscii s = true) : IsUtf8 (s ++ t) ↔ IsUtf8 t := by
  induction s with
  | nil => exact Iff.rfl
  | cons b s ih =>
    simp only [isAscii_cons, Bool.and_eq_true, decide_eq_true_eq] at hs
    rw [List.cons_append, ← List.nil_append (b :: (s ++ t)), isUtf8_append_cons_iff hs.1, ih hs.2]
    exact and_iff_right isUtf8_nil

/-! ### Writing ASCII in another way -/

/-- Bytes below 128 are written as such bytes, at least one; others are kept. -/
structure Rewrites (f : UInt8 → Bytes) : Prop where
  ascii : ∀ b, b < 0x80 → isAscii (f b) = true
  ne_nil : ∀ b, f b ≠ []
  other : ∀ b, ¬b < 0x80 → f b = [b]

namespace Rewrites

variable {f : UInt8 → Bytes} (hf : Rewrites f)

include hf

theorem flatMap_of_not_lt (h : ∀ b ∈ s, ¬b < 0x80) : s.flatMap f = s := by
  induction s with
  | nil => rfl
  | cons b s ih =>
    rw [List.flatMap_cons, hf.other b (h b (by simp)), ih fun b hb => h b (by simp [hb])]
    rfl

/-- Bytes that are kept come from the same bytes. -/
theorem exists_of_flatMap_eq (h : s.flatMap f = u ++ t) (hu : ∀ b ∈ u, ¬b < 0x80) :
    ∃ v, s = u ++ v ∧ v.flatMap f = t := by
  induction u generalizing s with
  | nil => exact ⟨s, rfl, h⟩
  | cons b u ih =>
    rcases s with _ | ⟨a, s⟩
    · cases h
    · rw [List.flatMap_cons] at h
      have ha : ¬a < 0x80 := by
        intro ha
        obtain ⟨x, r, hx⟩ := List.exists_cons_of_ne_nil (hf.ne_nil a)
        rw [hx] at h
        obtain ⟨rfl, -⟩ := List.cons.inj h
        exact hu x (by simp) (isAscii_iff.1 (hf.ascii a ha) x (by simp [hx]))
      rw [hf.other a ha, List.singleton_append, List.cons_append] at h
      obtain ⟨rfl, hs⟩ := List.cons.inj h
      obtain ⟨v, rfl, hv⟩ := ih hs fun b hb => hu b (by simp [hb])
      exact ⟨v, rfl, hv⟩

theorem isUtf8_flatMap (h : IsUtf8 s) : IsUtf8 (s.flatMap f) := by
  obtain ⟨cs, rfl⟩ := h
  induction cs with
  | nil => exact isUtf8_nil
  | cons c cs ih =>
    have hu : utf8 (c :: cs) = String.utf8EncodeChar c ++ utf8 cs := rfl
    rw [hu, List.flatMap_append]
    refine IsUtf8.append ?_ ih
    rcases utf8EncodeChar_cases c with ⟨b, hb, -, he⟩ | ⟨-, hne⟩
    · rw [he, List.flatMap_singleton]
      exact isUtf8_of_isAscii (hf.ascii b hb)
    · rw [hf.flatMap_of_not_lt hne]
      exact isUtf8_utf8EncodeChar c

theorem isUtf8_of_flatMap (h : IsUtf8 (s.flatMap f)) : IsUtf8 s := by
  induction hn : s.length using Nat.strongRecOn generalizing s with
  | ind n ih =>
    rcases s with _ | ⟨b, s⟩
    · exact isUtf8_nil
    by_cases hb : b < 0x80
    · rw [List.flatMap_cons, isUtf8_append_left_iff (hf.ascii b hb)] at h
      have hs : IsUtf8 s := ih s.length (by simp [← hn]) h rfl
      exact (isUtf8_append_cons_iff (s := []) hb).2 ⟨isUtf8_nil, hs⟩
    · -- The text starts with a character of several bytes, all of which are kept.
      obtain ⟨cs, hcs⟩ := h
      rcases cs with _ | ⟨c, cs⟩
      · simp [hf.other b hb, utf8] at hcs
      have hcs : (b :: s).flatMap f = String.utf8EncodeChar c ++ utf8 cs := hcs
      rcases utf8EncodeChar_cases c with ⟨b', hb', -, he⟩ | ⟨-, hne⟩
      · rw [he, List.flatMap_cons, hf.other b hb] at hcs
        obtain ⟨rfl, -⟩ := List.cons.inj hcs
        exact absurd hb' hb
      · obtain ⟨v, hv, hcs⟩ := hf.exists_of_flatMap_eq hcs hne
        have hl : v.length < (b :: s).length := by
          have := c.utf8Size_pos
          rw [hv, List.length_append, String.length_utf8EncodeChar]
          omega
        rw [hv]
        exact (isUtf8_utf8EncodeChar c).append (ih v.length (hn ▸ hl) ⟨cs, hcs⟩ rfl)

/-- **Writing ASCII in another way keeps and reflects UTF-8.** -/
theorem isUtf8_flatMap_iff : IsUtf8 (s.flatMap f) ↔ IsUtf8 s :=
  ⟨hf.isUtf8_of_flatMap, hf.isUtf8_flatMap⟩

end Rewrites

end MacroConstants.Bytes
