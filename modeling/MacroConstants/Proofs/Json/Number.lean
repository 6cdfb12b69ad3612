import MacroConstants.Decimal.General
import MacroConstants.Proofs.Bytes
import MacroConstants.Proofs.Json.Grammar
import MacroConstants.Report.Record

/-!
# Written numbers

* `Json.number_signed` : integers are written as tokens.
* `Json.number_decimalToken` : so is the text of a floating literal, without its leading zeros.
* `Json.number_general` : so are finite binary numbers, at any precision.
* `Json.scan_general` : the names of the others are refused by a reader of words.
-/

namespace MacroConstants

/-! ### Decimal digits -/

namespace Numeral

variable {n : ℕ}

/-- What holds of all digits of a base holds of the digits of a number. -/
theorem all_toDigits {base : ℕ} {p : UInt8 → Bool} (hb : 1 < base)
    (hp : ∀ d < base, p (ascii (Nat.digitChar d)) = true) (n : ℕ) :
    ((Nat.toDigits base n).map Char.toUInt8).all p = true := by
  induction n using Nat.strongRecOn with
  | ind n ih =>
    rcases Nat.lt_or_ge n base with h | h
    · rw [Nat.toDigits_of_lt_base h, List.map_singleton, List.all_cons, hp n h]
      rfl
    · have hn : n / base < n := Nat.div_lt_self (by omega) hb
      rw [Nat.toDigits_of_base_le hb h, List.map_append, List.all_append, ih (n / base) hn,
        List.map_singleton, List.all_cons, hp _ (Nat.mod_lt n (by omega))]
      rfl

theorem all_isDigit_decimal (n : ℕ) : (decimal n).all Bytes.isDigit = true :=
  all_toDigits (by decide) (by decide) n

theorem notMem_decimal {b : UInt8} (hb : Bytes.isDigit b = false) (n : ℕ) : b ∉ decimal n := by
  intro h
  have hdigit := List.all_eq_true.1 (all_isDigit_decimal n) b h
  rw [hb] at hdigit
  cases hdigit

theorem slash_notMem_decimal (n : ℕ) : ascii '/' ∉ decimal n := notMem_decimal (by decide) n

theorem isAscii_hexadecimal (n : ℕ) : Bytes.isAscii (hexadecimal n) = true :=
  all_toDigits (by decide) (by decide) n

theorem decimal_ne_nil (n : ℕ) : decimal n ≠ [] := by simp [decimal]

theorem digitChar_ne_zero (h : n < 10) (h0 : n ≠ 0) : ascii (Nat.digitChar n) ≠ ascii '0' := by
  revert h0 h n
  decide

/-- A positive number is written without leading zeros. -/
theorem head?_decimal (h : n ≠ 0) : (decimal n).head? ≠ some (ascii '0') := by
  induction n using Nat.strongRecOn with
  | ind n ih =>
    rcases Nat.lt_or_ge n 10 with hn | hn
    · rw [decimal, Nat.toDigits_of_lt_base hn]
      exact fun he => digitChar_ne_zero hn h (Option.some.inj he)
    · rw [decimal, Nat.toDigits_of_base_le (by decide) hn, List.map_append,
        List.head?_append_of_ne_nil _ (by simp)]
      exact ih (n / 10) (by omega) (by omega)

end Numeral

namespace Json

variable {s t : Bytes}

theorem digits_decimal (n : ℕ) : Digits (Numeral.decimal n) :=
  ⟨Numeral.decimal_ne_nil n, Numeral.all_isDigit_decimal n⟩

theorem whole_decimal (n : ℕ) : Whole (Numeral.decimal n) := by
  rcases eq_or_ne n 0 with rfl | h
  · exact .inl rfl
  · exact .inr ⟨digits_decimal n, Numeral.head?_decimal h⟩

theorem Whole.magnitude (h : Whole s) : Magnitude s := by
  have := Magnitude.mk h .none .none
  rwa [List.append_nil, List.append_nil] at this

theorem Whole.exists_cons (h : Whole s) : ∃ b t, s = b :: t ∧ Bytes.isDigit b = true := by
  rcases h with rfl | ⟨h, -⟩
  · exact ⟨ascii '0', [], rfl, rfl⟩
  · obtain ⟨b, t, rfl⟩ := List.exists_cons_of_ne_nil h.1
    exact ⟨b, t, rfl, (Bool.and_eq_true_iff.1 h.2).1⟩

/-- A token of a number starts with a minus or a digit. -/
theorem Number.exists_cons (h : Number s) :
    ∃ b t, s = b :: t ∧ (b = ascii '-' ∨ Bytes.isDigit b = true) := by
  cases h with
  | plain h =>
    cases h with
    | mk hw _ _ =>
      obtain ⟨b, t, rfl, hb⟩ := hw.exists_cons
      exact ⟨b, _, rfl, .inr hb⟩
  | minus => exact ⟨_, _, rfl, .inl rfl⟩

/-- Integers are written as tokens. -/
theorem number_signed (i : Int) : Number (Numeral.signed i) := by
  cases i with
  | ofNat n => exact .plain (whole_decimal n).magnitude
  | negSucc n => exact .minus (whole_decimal (n + 1)).magnitude

/-! ### Floating literals -/

theorem Digits.whole (h : Digits s) (h0 : s.head? ≠ some (ascii '0')) : Whole s := .inr ⟨h, h0⟩

/-- Of the digits before the point at least one is left, and only zeros are left out. -/
theorem exists_decimalToken {w : Bytes} (f : Bytes) (hw : Digits w) :
    ∃ k v, w = List.replicate k (ascii '0') ++ v ∧ Whole v ∧
      decimalToken (w ++ ascii '.' :: f) = v ++ ascii '.' :: f := by
  induction w with
  | nil => exact absurd rfl hw.1
  | cons d w ih =>
    rcases w with _ | ⟨e, w⟩
    · refine ⟨0, [d], rfl, ?_, by simp [decimalToken]⟩
      by_cases hd : d = ascii '0'
      · exact .inl (hd ▸ rfl)
      · exact hw.whole (by simpa using hd)
    · by_cases hd : d = ascii '0'
      · have hall : (e :: w).all Bytes.isDigit = true := (Bool.and_eq_true_iff.1 hw.2).2
        have he : e ≠ ascii '.' := by
          rintro rfl
          exact absurd (Bool.and_eq_true_iff.1 hall).1 (by decide)
        obtain ⟨k, v, hw, hv, h⟩ := ih ⟨by simp, hall⟩
        refine ⟨k + 1, v, ?_, hv, by simpa [decimalToken, hd, he] using h⟩
        rw [hd, hw]
        rfl
      · exact ⟨0, d :: e :: w, rfl, hw.whole (by simpa using hd), by simp [decimalToken, hd]⟩

/-- Without its leading zeros, digits, a point and digits are a token. -/
theorem number_decimalToken {w f : Bytes} (hw : Digits w) (hf : Digits f) :
    Number (decimalToken (w ++ ascii '.' :: f)) := by
  obtain ⟨-, v, -, hv, h⟩ := exists_decimalToken f hw
  have hm := Magnitude.mk hv (.some hf) .none
  rw [List.append_nil] at hm
  exact h ▸ .plain hm

/-! ### Binary numbers -/

theorem Digits.take {k : ℕ} (h : Digits s) (hk : 0 < k) : Digits (s.take k) := by
  refine ⟨by simp [h.1]; omega, ?_⟩
  exact List.all_eq_true.2 fun b hb => List.all_eq_true.1 h.2 b (List.mem_of_mem_take hb)

theorem Whole.take {k : ℕ} (h : Whole s) (hk : 0 < k) : Whole (s.take k) := by
  rcases h with rfl | ⟨h, h0⟩
  · exact .inl (List.take_of_length_le hk)
  · refine (h.take hk).whole ?_
    rwa [List.head?_take, if_neg (by omega)]

/-- What is left of digits without the zeros at the end makes a fraction, or there is none. -/
theorem fraction_fractionText (h : s.all Bytes.isDigit = true) :
    Fraction (Decimal.fractionText (Bytes.trimEnd (· == ascii '0') s)) := by
  unfold Decimal.fractionText
  split
  · exact .none
  · rename_i hne
    obtain ⟨tail, hs, -⟩ := Bytes.exists_trimEnd (· == ascii '0') s
    rw [hs, List.all_append, Bool.and_eq_true] at h
    exact .some ⟨by simpa using hne, h.1⟩

theorem exponent_exponentText (e : Int) : Exponent (Decimal.exponentText e) := by
  have hd := digits_decimal e.natAbs
  have hsign : (if e < 0 then bytes "-" else bytes "+") = [] ∨
      (if e < 0 then bytes "-" else bytes "+") = [ascii '+'] ∨
      (if e < 0 then bytes "-" else bytes "+") = [ascii '-'] := by
    split
    · exact .inr (.inr rfl)
    · exact .inr (.inl rfl)
  have hs : Digits (if (Numeral.decimal e.natAbs).length < 2
      then ascii '0' :: Numeral.decimal e.natAbs else Numeral.decimal e.natAbs) := by
    split
    · exact ⟨by simp, by rw [List.all_cons, hd.2]; rfl⟩
    · exact hd
  exact .some (.inl rfl) hsign hs

/-- Of digits that do not start with a zero something is left without the zeros at the end. -/
theorem Digits.trimEnd (h : Digits s) (h0 : s.head? ≠ some (ascii '0')) :
    Digits (Bytes.trimEnd (· == ascii '0') s) := by
  obtain ⟨tail, hs, ht⟩ := Bytes.exists_trimEnd (· == ascii '0') s
  refine ⟨fun hnil => ?_, ?_⟩
  · rw [hnil, List.nil_append] at hs
    obtain ⟨b, r, hb⟩ := List.exists_cons_of_ne_nil h.1
    have hz : b = ascii '0' := by simpa using ht b (by simp [← hs, hb])
    exact h0 (by simp [hb, hz])
  · have hall := h.2
    rw [hs, List.all_append, Bool.and_eq_true] at hall
    exact hall.1

theorem Digits.zeros_append (h : Digits s) (k : ℕ) :
    Digits (List.replicate k (ascii '0') ++ s) := by
  refine ⟨by simp [h.1], ?_⟩
  have hz : (List.replicate k (ascii '0')).all Bytes.isDigit = true :=
    List.all_eq_true.2 fun b hb => by rw [List.eq_of_mem_replicate hb]; rfl
  rw [List.all_append, hz, h.2]
  rfl

/-- Digits are laid out as a token; below one they must not all be zeros. -/
theorem magnitude_layout {precision digits : ℕ} {place : Int} (h : place < 0 → digits ≠ 0) :
    Magnitude (Decimal.layout precision digits place) := by
  have hw := whole_decimal digits
  have hd := digits_decimal digits
  have hdrop (k : ℕ) : ((Numeral.decimal digits).drop k).all Bytes.isDigit = true :=
    List.all_eq_true.2 fun b hb => List.all_eq_true.1 hd.2 b (List.mem_of_mem_drop hb)
  unfold Decimal.layout
  split
  · exact .mk (hw.take (by decide)) (fraction_fractionText (hdrop 1)) (exponent_exponentText place)
  split
  · rename_i hneg
    have hf := (hd.trimEnd (Numeral.head?_decimal (h hneg))).zeros_append (-place - 1).toNat
    have hm := Magnitude.mk (.inl rfl) (.some hf) .none
    have hb : bytes "0." = [ascii '0', ascii '.'] := rfl
    simpa only [hb, List.append_assoc, List.append_nil, List.cons_append, List.nil_append] using hm
  · have hm := Magnitude.mk (hw.take (Nat.succ_pos place.toNat))
      (fraction_fractionText (hdrop (place.toNat + 1))) .none
    rwa [List.append_nil] at hm

theorem lt_pow_digitCount (n : ℕ) : n < 10 ^ Decimal.digitCount n := by
  unfold Decimal.digitCount
  split
  · rename_i h
    simp [h]
  · exact (Nat.length_toDigits_le_iff (by decide) Nat.length_toDigits_pos).1 le_rfl

theorem roundDiv_ne_zero {num den : ℕ} (hd : 0 < den) (h : den ≤ num) :
    Decimal.roundDiv num den ≠ 0 := by
  have hq : 0 < num / den := Nat.div_pos h hd
  simp only [Decimal.roundDiv]
  split <;> try split <;> try split
  all_goals omega

/-- A quotient is scaled up by at least as many places as it has zeros behind the point. -/
theorem scaled_ne_zero {num den k : ℕ} {power : Int} (hn : 0 < num) (hd : 0 < den)
    (hk : (den - 1) / num < 10 ^ k) (hp : (k : Int) ≤ power) :
    Decimal.scaled num den power ≠ 0 := by
  obtain ⟨p, rfl⟩ : ∃ p : ℕ, power = p := Int.eq_ofNat_of_zero_le (by omega)
  have h0 : (-(p : Int)).toNat = 0 := by omega
  have hkp : 10 ^ k ≤ 10 ^ p := Nat.pow_le_pow_right (by decide) (by omega)
  have hlt : den - 1 < 10 ^ k * num := (Nat.div_lt_iff_lt_mul hn).1 hk
  have hle : 10 ^ k * num ≤ 10 ^ p * num := Nat.mul_le_mul_right num hkp
  rw [Decimal.scaled, Int.toNat_natCast, h0, Nat.mul_comm num]
  exact roundDiv_ne_zero (by omega) (by omega)

/-- A quotient below one is rounded to digits that are not all zeros. -/
theorem significant_ne_zero {precision num den : ℕ} (hp : 0 < precision) (hn : 0 < num)
    (hd : 0 < den) (h : (Decimal.significant precision num den).2 < 0) :
    (Decimal.significant precision num den).1 ≠ 0 := by
  revert h
  simp only [Decimal.significant]
  split
  -- rounding has filled another digit, which is a one
  · exact fun _ => Nat.ne_of_gt (Nat.pow_pos (by decide))
  intro h
  simp only [Decimal.leading] at h ⊢
  split at h
  -- a quotient of at least one has a digit before the point
  · rename_i hle
    have hq : 0 < num / den := Nat.div_pos hle hd
    have hlt := lt_pow_digitCount (num / den)
    have hc : Decimal.digitCount (num / den) = 0 := by omega
    rw [hc] at hlt
    omega
  · rename_i hlt
    rw [if_neg hlt]
    exact scaled_ne_zero hn hd (lt_pow_digitCount _) (by omega)

theorem ratio_pos {x : Binary64} (h : x.isZero = false) : 0 < x.ratio.1 ∧ 0 < x.ratio.2 := by
  unfold Binary64.ratio
  split
  · rename_i he
    have hf : x.fraction ≠ 0 := by simpa [Binary64.isZero, he] using h
    refine ⟨Nat.pos_of_ne_zero hf, ?_⟩
    generalize 1074 = n  -- too large a power to evaluate
    exact Nat.two_pow_pos n
  have hf : 0 < x.fraction + 2 ^ 52 := by omega
  split
  · exact ⟨Nat.mul_pos hf (Nat.two_pow_pos _), Nat.one_pos⟩
  · exact ⟨hf, Nat.two_pow_pos _⟩

/-- Finite binary numbers are written as tokens. -/
theorem number_general {precision : ℕ} {x : Binary64} (hp : 0 < precision)
    (hx : x.isFinite = true) : Number (Decimal.general precision x) := by
  have hnan : x.isNaN = false := by
    simp only [Binary64.isFinite, bne_iff_ne] at hx
    simp [Binary64.isNaN, hx]
  have hm : Magnitude (if x.isZero then bytes "0"
      else Decimal.layout precision (Decimal.significant precision x.ratio.1 x.ratio.2).1
        (Decimal.significant precision x.ratio.1 x.ratio.2).2) := by
    split
    · exact Whole.magnitude (.inl rfl)
    · rename_i hz
      obtain ⟨hn, hd⟩ := ratio_pos (by simpa using hz)
      exact magnitude_layout (significant_ne_zero hp hn hd)
  simp only [Decimal.general, hnan, hx, Bool.not_true, Bool.false_eq_true, ↓reduceIte]
  split
  · exact .minus hm
  · exact .plain hm

/-- The names of the other binary numbers are refused by a reader of words. -/
theorem scan_general {precision : ℕ} {x : Binary64} (hx : x.isFinite = false) :
    scan .outside (Decimal.general precision x) = none := by
  simp only [Decimal.general, hx, Bool.not_false, ↓reduceIte]
  split <;> split <;> rfl

end Json

end MacroConstants
