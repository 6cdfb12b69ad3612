import MacroConstants.Proofs.Json.Written

/-!
# Canonical spellings of literals

The value of a literal can be spelled again: an integer in decimal, a floating literal as its text,
with a suffix for a `float`, and a string between quotes.  What is spelled has the shape that its
value came from, and says the same in it, so it is read as the same value.  For integers this rests
on decimal text denoting its number; zero alone starts with a zero, and means the same in base
eight.  Hence all spellings of a value lead to one, which leads to itself.

* `Value.spelling`, `Literal.canonical?` : the spelling of a value, and that of what a text says.
* `Literal.integral_signed` : the decimal text of an integer denotes it.
* `Literal.Spells.spelling` : the spelling of a value spells it, in the same shape.
* `Literal.read?_spelling` : **what is spelled again is read as it was.**
-/

namespace MacroConstants

/-- The value as a literal: a `float` has a suffix and a string has quotes. -/
def Value.spelling (v : Value) : Bytes :=
  match v.type with
  | .float => v.render ++ [ascii 'f']
  | .string => ascii '"' :: (v.render ++ [ascii '"'])
  | _ => v.render

namespace Literal

variable {raw text : Bytes} {v w : Value} {a : Shape}

/-- The spelling of what a text says, if it says something. -/
def canonical? (raw : Bytes) : Option Bytes := (read? raw).map Value.spelling

/-! ### Integers -/

/-- Zero is read in base eight and all other numbers in base ten. -/
theorem magnitude_decimal (n : ℕ) : Magnitude (Numeral.decimal n) n := by
  by_cases h : n = 0
  · rw [h]
    exact .octal ⟨[], rfl, List.forall_mem_nil _⟩
  · have hdecimal : DecimalDigits (Numeral.decimal n) := by
      obtain ⟨d, ds, hd⟩ := List.exists_cons_of_ne_nil (Numeral.decimal_ne_nil n)
      have hhead := Numeral.head?_decimal h
      have hdigits := List.all_eq_true.1 (Numeral.all_isDigit_decimal n)
      rw [hd] at hhead hdigits
      exact ⟨d, ds, hd, fun heq => hhead (congrArg some heq), hdigits⟩
    have hmagnitude := Magnitude.decimal hdecimal
    rwa [Numeral.denoted_decimal] at hmagnitude

theorem integral_signed (i : ℤ) : Integral (Numeral.signed i) i := by
  cases i with
  | ofNat n => exact .plain (magnitude_decimal n)
  | negSucc n => exact .minus (magnitude_decimal (n + 1))

/-- Every number of 64 bits, the least and the greatest too, is spelled by its decimal text. -/
theorem spells_render_int (k : Int64) : Spells (Value.int k).render .integral (.int k) := by
  have hrange : InRange k.toInt := ⟨Int64.minValue_le_toInt k, Int64.toInt_le k⟩
  have hspells := Spells.integer (integral_signed k.toInt) hrange
  rwa [show k.toInt.toInt64 = k from Int64.ofInt_toInt k] at hspells

/-! ### All shapes -/

/-- A floating literal is rendered as its text. -/
theorem render_decimal {t : TypeTag} (ht : t = .float ∨ t = .double) (h : Pointed text) :
    (Value.decimal t text).render = text := by
  have hne : text ≠ [] := by
    obtain ⟨whole, fraction, rfl, hw, -, -⟩ := h
    simp [hw]
  rcases ht with rfl | rfl <;> simp [Value.render, Value.type, Value.text, hne]

/-- The spelling of a value that was spelled spells it again, in the same shape. -/
theorem Spells.spelling (h : Spells raw a v) : Spells v.spelling a v := by
  cases h with
  | integer _ _ => exact spells_render_int _
  | string h =>
    obtain ⟨hne, hword⟩ := h
    exact .string (.mk hne hword)
  | @real _ text h =>
    cases h with
    | double h =>
      have hspelling : (Value.decimal .double raw).spelling = raw := render_decimal (.inr rfl) h
      rw [hspelling]
      exact .real (.double h)
    | float h _ =>
      have hspelling : (Value.decimal .float text).spelling = text ++ [ascii 'f'] :=
        congrArg (· ++ [ascii 'f']) (render_decimal (.inl rfl) h)
      rw [hspelling]
      exact .real (.float h (.inl rfl))

/-- A value that was read is read from its spelling. -/
theorem read?_of_read? (h : read? raw = some v) : read? v.spelling = some v := by
  obtain ⟨a, ha⟩ := read?_eq_some_iff.1 h
  exact read?_eq_some_iff.2 ⟨a, ha.spelling⟩

/-- **What is spelled again is read as it was.**  The decimal text of every number of 64 bits is
read as this number.  If a text is read as a value, then the spelling of the value is read as the
same value, of the same type, so that it is its own spelling; and another text that can be read has
this spelling exactly if it says the same. -/
theorem read?_spelling :
    (∀ k : Int64, read? (Value.int k).render = some (.int k)) ∧
    ∀ raw v, read? raw = some v →
      read? v.spelling = some v ∧
      (canonical? raw = some v.spelling ∧ canonical? v.spelling = some v.spelling) ∧
      ∀ raw', (canonical? raw' = some v.spelling ↔ read? raw' = some v) := by
  refine ⟨fun k => read?_eq_some_iff.2 ⟨_, spells_render_int k⟩, fun raw v hv => ?_⟩
  have hagain := read?_of_read? hv
  have hcanonical : ∀ {raw}, read? raw = some v → canonical? raw = some v.spelling :=
    fun h => congrArg (Option.map Value.spelling) h
  refine ⟨hagain, ⟨hcanonical hv, hcanonical hagain⟩, fun raw' => ⟨fun h => ?_, hcanonical⟩⟩
  obtain ⟨w, hw, hspelling⟩ := Option.map_eq_some_iff.1 h
  -- the one spelling is read as both values
  have hsame := read?_of_read? hw
  rw [hspelling, hagain] at hsame
  rw [hw, Option.some.inj hsame]

/-- An octal literal, and a `float` with the other suffix. -/
theorem read?_spelling_octal :
    read? (bytes "-0777") = some (.int (-511)) ∧ canonical? (bytes "-0777") = some (bytes "-511") ∧
      canonical? (bytes "-511") = some (bytes "-511") ∧
      canonical? (bytes "1.50F") = some (bytes "1.50f") ∧
      read? (bytes "1.50f") = some (.decimal .float (bytes "1.50")) := by
  have hoctal : read? (bytes "-0777") = some (.int (-511)) := by decide
  have hfloat : read? (bytes "1.50F") = some (.decimal .float (bytes "1.50")) := by decide
  obtain ⟨-, ⟨hspelled, hfixed⟩, -⟩ := read?_spelling.2 _ _ hoctal
  obtain ⟨hagain, ⟨hsuffix, -⟩, -⟩ := read?_spelling.2 _ _ hfloat
  have hspelling : (Value.int (-511)).spelling = bytes "-511" := by decide
  rw [hspelling] at hspelled hfixed
  exact ⟨hoctal, hspelled, hfixed, hsuffix, hagain⟩

example : (Value.int Int64.minValue).render = bytes "-9223372036854775808" := by decide

end Literal

end MacroConstants
