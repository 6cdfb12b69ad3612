import MacroConstants.Proofs.Json.Record
import MacroConstants.Proofs.Json.Written

/-!
# Leading zeros

The text of a floating literal is kept as it was written, and JSON does not allow all of it: digits
before the point must not start with a zero, unless it is the only one.  A loop drops the first byte
as long as it is a zero and something other than the point is behind it.  Its rounds are steps of a
relation on texts.  One step takes a zero from the digits before the point and leaves a digit there,
so no state of a run has less than a digit, the point and the digits behind it, and all of them
denote the same number; and where no step is possible, the text is a token.

* `Drops` : one round.
* `runs_decimalToken`, `not_drops_decimalToken` : the loop goes on as long as it can.
* `Drops.of_digits`, `exists_of_runs` : what one round and what a run leaves.
* `decimalToken_exact` : **the token of a floating literal is its text from some digit on.**
-/

namespace MacroConstants

open Json (Digits Whole)
open Relation (ReflTransGen)

variable {text s s' w f : Bytes}

/-- One round: a zero goes, if what is behind it is not the point. -/
inductive Drops : Bytes → Bytes → Prop
  | zero {e : UInt8} {rest : Bytes} : e ≠ ascii '.' → Drops (ascii '0' :: e :: rest) (e :: rest)

/-! ### The loop -/

theorem Drops.suffix (h : Drops s s') : s' <:+ s := by
  cases h with
  | zero _ => exact List.suffix_cons _ _

theorem decimalToken_of_drops (h : Drops s s') : decimalToken s = decimalToken s' := by
  cases h with
  | zero he => rw [decimalToken, if_pos ⟨rfl, he⟩]

/-- The loop does what it can in its rounds, … -/
theorem runs_decimalToken (text : Bytes) : ReflTransGen Drops text (decimalToken text) := by
  fun_induction decimalToken text with
  | case1 d e rest hd ih =>
    obtain ⟨rfl, he⟩ := hd
    exact .head (.zero he) ih
  | case2 => exact .refl
  | case3 => exact .refl

/-- … and stops only where there is nothing to do. -/
theorem not_drops_decimalToken (text s : Bytes) : ¬ Drops (decimalToken text) s := by
  fun_induction decimalToken text with
  | case1 d e rest hd ih => exact ih
  | case2 d e rest hd =>
    rintro ⟨he⟩
    exact hd ⟨rfl, he⟩
  | case3 text hshort =>
    rintro ⟨he⟩
    exact hshort _ _ _ rfl

theorem decimalToken_of_not_drops (h : ∀ s, ¬ Drops text s) : decimalToken text = text := by
  cases ReflTransGen.cases_head (runs_decimalToken text) with
  | inl heq => exact heq.symm
  | inr hstep =>
    obtain ⟨s, hdrops, -⟩ := hstep
    exact absurd hdrops (h s)

/-- A text that the loop comes by has the same token. -/
theorem decimalToken_of_runs (h : ReflTransGen Drops text s) :
    decimalToken text = decimalToken s := by
  induction h with
  | refl => rfl
  | tail _ hdrops ih => exact ih.trans (decimalToken_of_drops hdrops)

theorem suffix_of_runs (h : ReflTransGen Drops text s) : s <:+ text := by
  induction h with
  | refl => exact List.suffix_rfl
  | tail _ hdrops ih => exact hdrops.suffix.trans ih

/-! ### Digits, a point and digits -/

/-- A round leaves a digit before the point. -/
theorem Drops.of_digits (hw : Digits w) (h : Drops (w ++ ascii '.' :: f) s) :
    ∃ v, w = ascii '0' :: v ∧ Digits v ∧ s = v ++ ascii '.' :: f := by
  obtain ⟨hne, hall⟩ := hw
  rcases w with _ | ⟨d, _ | ⟨e, w⟩⟩
  · exact absurd rfl hne
  · -- a single digit stays
    cases h with
    | zero he => exact absurd rfl he
  · cases h with
    | zero he =>
      exact ⟨e :: w, rfl, ⟨List.cons_ne_nil e w, (Bool.and_eq_true_iff.1 hall).2⟩, rfl⟩

/-- So do all rounds together; what they take are zeros. -/
theorem exists_of_runs (hw : Digits w) (h : ReflTransGen Drops (w ++ ascii '.' :: f) s) :
    ∃ k v, w = List.replicate k (ascii '0') ++ v ∧ Digits v ∧ s = v ++ ascii '.' :: f := by
  induction h with
  | refl => exact ⟨0, w, rfl, hw, rfl⟩
  | tail _ hdrops ih =>
    obtain ⟨k, v, rfl, hv, rfl⟩ := ih
    obtain ⟨v', rfl, hv', rfl⟩ := hdrops.of_digits hv
    refine ⟨k + 1, v', ?_, hv', rfl⟩
    rw [List.replicate_succ', List.append_assoc, List.singleton_append]

/-- The texts that are kept of floating literals are all digits with a point between them. -/
theorem Literal.exists_read?_decimal_iff :
    (∃ raw t, Literal.read? raw = some (.decimal t text)) ↔
      ∃ w f, Digits w ∧ Digits f ∧ text = w ++ ascii '.' :: f := by
  constructor
  · rintro ⟨raw, t, h⟩
    exact Literal.exists_of_isPointed (Literal.sound_of_read? h).2
  · rintro ⟨w, f, hw, hf, rfl⟩
    have hpointed : Literal.Pointed (w ++ ascii '.' :: f) :=
      ⟨w, f, rfl, hw.1, hf.1,
        List.forall_mem_append.2 ⟨List.all_eq_true.1 hw.2, List.all_eq_true.1 hf.2⟩⟩
    exact ⟨_, _, Literal.read?_eq_some_iff.2 ⟨.floating, .real (.double hpointed)⟩⟩

/-- **The token of a floating literal.**  The text that is kept of it is digits, a point and digits.
The token is a text at its end that has the digits behind the point as they are, and before it a
zero or digits that do not start with one; it denotes the same number, a reader of JSON gets this
number, and its own token is the same again.  The loop gets there, and is at its end only there.
Whatever text it comes by, it has left out zeros only, at least a digit is left before the point,
and the number is still the same. -/
theorem decimalToken_exact (hkept : ∃ raw t, Literal.read? raw = some (.decimal t text)) :
    ∃ w f, text = w ++ ascii '.' :: f ∧ Digits w ∧ Digits f ∧
      (∃ v, decimalToken text = v ++ ascii '.' :: f ∧ Whole v ∧
        Numeral.pointed v f = Numeral.pointed w f) ∧
      decimalToken text <:+ text ∧
      Json.number? (decimalToken text) = some (Numeral.pointed w f, []) ∧
      decimalToken (decimalToken text) = decimalToken text ∧
      ReflTransGen Drops text (decimalToken text) ∧
      ∀ s, ReflTransGen Drops text s →
        ((∀ s', ¬ Drops s s') ↔ s = decimalToken text) ∧
        ∃ k v, w = List.replicate k (ascii '0') ++ v ∧ Digits v ∧ s = v ++ ascii '.' :: f ∧
          Numeral.pointed v f = Numeral.pointed w f := by
  obtain ⟨w, f, hw, hf, rfl⟩ := Literal.exists_read?_decimal_iff.1 hkept
  have hruns := runs_decimalToken (w ++ ascii '.' :: f)
  have hstops := not_drops_decimalToken (w ++ ascii '.' :: f)
  refine ⟨w, f, rfl, hw, hf, ?_, suffix_of_runs hruns, ?_, decimalToken_of_not_drops hstops, hruns,
    fun s hs => ⟨⟨fun hend => ?_, ?_⟩, ?_⟩⟩
  · obtain ⟨k, v, rfl, hv, htoken⟩ := Json.exists_decimalToken f hw
    exact ⟨v, htoken, hv, (Numeral.pointed_zeros k v f).symm⟩
  · have hend : Json.Stops [] := by rintro _ ⟨⟩
    have hnumber := Json.number?_decimalToken hw hf hend
    rwa [List.append_nil] at hnumber
  · rw [decimalToken_of_runs hs, decimalToken_of_not_drops hend]
  · rintro rfl
    exact hstops
  · obtain ⟨k, v, rfl, hv, rfl⟩ := exists_of_runs hw hs
    exact ⟨k, v, rfl, hv, rfl, (Numeral.pointed_zeros k v f).symm⟩

/-- A literal with nothing but zeros before the point. -/
theorem decimalToken_exact_zeros :
    (∃ raw t, Literal.read? raw = some (.decimal t (bytes "000.50"))) ∧
      decimalToken (bytes "000.50") = bytes "0.50" ∧
      ReflTransGen Drops (bytes "000.50") (bytes "0.50") ∧ ∀ s, ¬ Drops (bytes "0.50") s := by
  have hkept : ∃ raw t, Literal.read? raw = some (.decimal t (bytes "000.50")) :=
    ⟨bytes "000.50f", .float, by decide⟩
  have htoken : decimalToken (bytes "000.50") = bytes "0.50" := by decide
  obtain ⟨w, f, -, -, -, -, -, -, -, hruns, hstates⟩ := decimalToken_exact hkept
  rw [htoken] at hruns hstates
  exact ⟨hkept, htoken, hruns, (hstates _ hruns).1.2 rfl⟩

end MacroConstants
