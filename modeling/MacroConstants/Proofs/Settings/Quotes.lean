import MacroConstants.Configuration.SettingsFile
import MacroConstants.Proofs.Bytes
import Mathlib.Data.Bool.Basic

/-!
# Quotes in a settings file

Comments and the commas of lists are found by scans that keep track of the quotes passed so far.
Both are about the first byte of a kind that stands outside quotes.

* `Settings.endsQuoted_append` : the parity of quotes adds up along a text.
* `Settings.Guarded` : all bytes of a kind stand inside quotes, **the invariant of both scans**.
* `Settings.guarded_or_exists` : or else there is a first one outside.
* `Settings.Sheltered` : guarded texts with closed quotes, which can be put together.
* `Settings.stripComment_eq_iff` : what is left of a line without its comment.
* `Settings.splitUnquoted_append`, `Settings.splitUnquoted_of_guarded` : how a list is cut.
-/

namespace MacroConstants

namespace Settings

variable {c b : UInt8} {quoted : Bool} {s t line : Bytes}

/-! ### Parity -/

@[simp] theorem endsQuoted_nil : endsQuoted [] = false := rfl

theorem endsQuoted_append (s t : Bytes) :
    endsQuoted (s ++ t) = (endsQuoted s ^^ endsQuoted t) := by
  simp only [endsQuoted, List.count_append]
  rcases Nat.mod_two_eq_zero_or_one (s.count (ascii '"')) with hs | hs <;>
    rcases Nat.mod_two_eq_zero_or_one (t.count (ascii '"')) with ht | ht <;>
    simp [Nat.add_mod, hs, ht]

theorem endsQuoted_singleton (b : UInt8) : endsQuoted [b] = decide (b = ascii '"') := by
  by_cases h : b = ascii '"' <;> simp [endsQuoted, h]

theorem endsQuoted_cons (b : UInt8) (s : Bytes) :
    endsQuoted (b :: s) = (decide (b = ascii '"') ^^ endsQuoted s) := by
  rw [← List.singleton_append, endsQuoted_append, endsQuoted_singleton]

theorem endsQuoted_cons_of_ne (h : b ≠ ascii '"') (s : Bytes) :
    endsQuoted (b :: s) = endsQuoted s := by
  simp [endsQuoted_cons, h]

theorem endsQuoted_of_notMem (h : ascii '"' ∉ s) : endsQuoted s = false := by
  simp [endsQuoted, List.count_eq_zero_of_not_mem h]

/-! ### Bytes inside quotes -/

/-- Every `c` of the text has an odd number of quotes before it, not counting those before the
text; `quoted` says whether one of these is open. -/
def Guarded (c : UInt8) (quoted : Bool) (s : Bytes) : Prop :=
  ∀ before after, s = before ++ c :: after → (quoted ^^ endsQuoted before) = true

theorem guarded_of_notMem (h : c ∉ s) : Guarded c quoted s := by
  rintro before after rfl
  exact absurd (by simp) h

theorem guarded_nil : Guarded c quoted [] := guarded_of_notMem List.not_mem_nil

theorem guarded_append :
    Guarded c quoted (s ++ t) ↔ Guarded c quoted s ∧ Guarded c (quoted ^^ endsQuoted s) t := by
  constructor
  · intro h
    refine ⟨fun before after hs => h before (after ++ t) (by simp [hs]), fun before after ht => ?_⟩
    rw [Bool.xor_assoc, ← endsQuoted_append]
    exact h (s ++ before) after (by simp [ht])
  · rintro ⟨hs, ht⟩ before after heq
    -- the byte is in one of the two parts
    rcases List.append_eq_append_iff.1 heq with ⟨mid, rfl, hmid⟩ | ⟨mid, rfl, hmid⟩
    · have := ht mid after hmid
      rwa [Bool.xor_assoc, ← endsQuoted_append] at this
    · cases mid with
      | nil =>
        have := ht [] after (by simpa using hmid.symm)
        simpa using this
      | cons d mid =>
        obtain ⟨rfl, -⟩ := List.cons.inj hmid
        exact hs before mid rfl

theorem guarded_singleton : Guarded c quoted [b] ↔ (b = c → quoted = true) := by
  constructor
  · rintro h rfl
    simpa using h [] [] rfl
  · intro h before after heq
    obtain ⟨rfl, h'⟩ := List.append_eq_singleton_iff.1 heq.symm |>.resolve_right (by simp)
    obtain ⟨rfl, -⟩ := List.cons.inj h'
    simpa using h rfl

theorem guarded_cons :
    Guarded c quoted (b :: s) ↔
      (b = c → quoted = true) ∧ Guarded c (quoted ^^ decide (b = ascii '"')) s := by
  rw [← List.singleton_append, guarded_append, guarded_singleton, endsQuoted_singleton]

/-- Inside a quote that nothing closes everything is guarded. -/
theorem guarded_true (h : ascii '"' ∉ s) : Guarded c true s := by
  rintro before after rfl
  have hb : ascii '"' ∉ before := fun hm => h (by simp [hm])
  rw [endsQuoted_of_notMem hb]
  rfl

/-- The quotes of the text are closed and every `c` of it is inside them. -/
def Sheltered (c : UInt8) (s : Bytes) : Prop := Guarded c false s ∧ endsQuoted s = false

theorem Sheltered.append (hs : Sheltered c s) (ht : Sheltered c t) : Sheltered c (s ++ t) := by
  refine ⟨guarded_append.2 ⟨hs.1, ?_⟩, by rw [endsQuoted_append, hs.2, ht.2, Bool.xor_false]⟩
  rw [hs.2, Bool.xor_false]
  exact ht.1

theorem sheltered_of_notMem (hc : c ∉ s) (hq : ascii '"' ∉ s) : Sheltered c s :=
  ⟨guarded_of_notMem hc, endsQuoted_of_notMem hq⟩

/-- Either all bytes of a kind are inside quotes or there is a first one outside. -/
theorem guarded_or_exists (c : UInt8) (quoted : Bool) (s : Bytes) :
    Guarded c quoted s ∨
      ∃ before after, s = before ++ c :: after ∧ Guarded c quoted before ∧
        (quoted ^^ endsQuoted before) = false := by
  induction s generalizing quoted with
  | nil => exact .inl guarded_nil
  | cons b s ih =>
    by_cases hb : b = c → quoted = true
    · rcases ih (quoted ^^ decide (b = ascii '"')) with h | ⟨before, after, rfl, h, hopen⟩
      · exact .inl (guarded_cons.2 ⟨hb, h⟩)
      · refine .inr ⟨b :: before, after, rfl, guarded_cons.2 ⟨hb, h⟩, ?_⟩
        rw [endsQuoted_cons, ← Bool.xor_assoc]
        exact hopen
    · push Not at hb
      obtain ⟨rfl, hquoted⟩ := hb
      exact .inr ⟨[], s, rfl, guarded_nil, by simpa using hquoted⟩

/-! ### Comments -/

/-- The scan for a comment after a byte. -/
theorem stripComment_cons (h : b = ascii '#' → quoted = true) :
    stripComment quoted (b :: s) = b :: stripComment (quoted ^^ decide (b = ascii '"')) s := by
  rw [stripComment]
  by_cases hq : b = ascii '"'
  · rw [if_pos hq]
    simp [hq]
  · have hc : ¬ (!quoted && decide (b = ascii '#')) = true := by
      cases quoted
      · simpa using h
      · simp
    rw [if_neg hq, if_neg hc]
    simp [hq]

/-- A scan passes over all that is guarded. -/
theorem stripComment_append (h : Guarded (ascii '#') quoted s) (t : Bytes) :
    stripComment quoted (s ++ t) = s ++ stripComment (quoted ^^ endsQuoted s) t := by
  induction s generalizing quoted with
  | nil => simp
  | cons b s ih =>
    obtain ⟨hb, hs⟩ := guarded_cons.1 h
    rw [List.cons_append, stripComment_cons hb, ih hs, endsQuoted_cons, Bool.xor_assoc,
      List.cons_append]

theorem stripComment_hash (t : Bytes) : stripComment false (ascii '#' :: t) = [] := by
  rw [stripComment, if_neg (by decide), if_pos (by decide)]

/-- What a comment is after a text: nothing, or a `#` outside quotes and anything after it. -/
def IsComment (s comment : Bytes) : Prop :=
  comment = [] ∨ comment.head? = some (ascii '#') ∧ endsQuoted s = false

/-- The rest of a line without its comment, in which every `#` is inside quotes. -/
theorem stripComment_eq_iff :
    stripComment false line = s ↔
      ∃ comment, line = s ++ comment ∧ Guarded (ascii '#') false s ∧ IsComment s comment := by
  constructor
  · rintro rfl
    rcases guarded_or_exists (ascii '#') false line with h | ⟨before, after, rfl, h, hopen⟩
    · have hall := stripComment_append h []
      rw [stripComment, List.append_nil] at hall
      exact ⟨[], by rw [hall, List.append_nil], by rwa [hall], .inl rfl⟩
    · rw [stripComment_append h, hopen, stripComment_hash, List.append_nil]
      exact ⟨_, rfl, h, .inr ⟨rfl, by simpa using hopen⟩⟩
  · rintro ⟨comment, rfl, h, hcomment⟩
    rw [stripComment_append h]
    rcases hcomment with rfl | ⟨hhash, hopen⟩
    · rw [stripComment, List.append_nil]
    · obtain ⟨after, rfl⟩ := List.head?_eq_some_iff.1 hhash
      rw [hopen, Bool.xor_false, stripComment_hash, List.append_nil]

/-! ### Commas -/

/-- The scan for a comma after a byte. -/
theorem splitUnquoted_cons (h : b = ascii ',' → quoted = true) {piece : Bytes}
    {pieces : List Bytes}
    (hs : splitUnquoted (quoted ^^ decide (b = ascii '"')) s = piece :: pieces) :
    splitUnquoted quoted (b :: s) = (b :: piece) :: pieces := by
  have hc : ¬ (!quoted && decide (b = ascii ',')) = true := by
    cases quoted
    · simpa using h
    · simp
  have hquoted : (if b = ascii '"' then !quoted else quoted) =
      (quoted ^^ decide (b = ascii '"')) := by
    by_cases hq : b = ascii '"' <;> simp [hq]
  rw [splitUnquoted, if_neg hc, hquoted, hs]

/-- A scan passes over all that is guarded, up to the end. -/
theorem splitUnquoted_of_guarded (h : Guarded (ascii ',') quoted s) :
    splitUnquoted quoted s = [s] := by
  induction s generalizing quoted with
  | nil => rfl
  | cons b s ih =>
    obtain ⟨hb, hs⟩ := guarded_cons.1 h
    exact splitUnquoted_cons hb (ih hs)

/-- A scan passes over all that is guarded, up to a comma outside quotes. -/
theorem splitUnquoted_append (h : Guarded (ascii ',') quoted s)
    (hopen : (quoted ^^ endsQuoted s) = false) (t : Bytes) :
    splitUnquoted quoted (s ++ ascii ',' :: t) = s :: splitUnquoted false t := by
  induction s generalizing quoted with
  | nil =>
    obtain rfl : quoted = false := by simpa using hopen
    rw [List.nil_append, splitUnquoted, if_pos (by decide)]
  | cons b s ih =>
    obtain ⟨hb, hs⟩ := guarded_cons.1 h
    rw [endsQuoted_cons, ← Bool.xor_assoc] at hopen
    exact splitUnquoted_cons hb (ih hs hopen)

end Settings

end MacroConstants
