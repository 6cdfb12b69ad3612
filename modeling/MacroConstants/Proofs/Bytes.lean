import MacroConstants.Bytes
import Mathlib.Data.List.DropRight
import Mathlib.Tactic.Common

/-!
# Trimming and splitting byte strings

* `Bytes.Bare` : a byte string that no byte of a class starts or ends.
* `Bytes.trim_append`, `Bytes.exists_trim`, `Bytes.bare_trim` : trimming a class of bytes is the
  only way to write a byte string as bytes of the class, a bare string and bytes of the class.
* `Bytes.trim_append_cons` : trimming around a byte that is not of the class.
* `Bytes.notMem_of_mem_lines`, `Bytes.length_lines`, `Bytes.lines_join`, `Bytes.lines_flatMap` :
  lines and newlines.
-/

namespace MacroConstants

namespace Bytes

variable {p : UInt8 → Bool} {s lead rest tail : Bytes}

/-- No byte of the class is the first or the last one. -/
def Bare (p : UInt8 → Bool) (s : Bytes) : Prop :=
  (∀ b ∈ s.head?, p b = false) ∧ ∀ b ∈ s.getLast?, p b = false

/-! ### Bytes of a class at the front -/

theorem dropWhile_append (hl : ∀ b ∈ lead, p b = true) (hr : ∀ b ∈ rest.head?, p b = false) :
    (lead ++ rest).dropWhile p = rest := by
  rw [List.dropWhile_append_of_pos hl]
  cases rest with
  | nil => rfl
  | cons b rest => rw [List.dropWhile_cons_of_neg (by simp [hr b rfl])]

theorem takeWhile_append (hl : ∀ b ∈ lead, p b = true) (hr : ∀ b ∈ rest.head?, p b = false) :
    (lead ++ rest).takeWhile p = lead := by
  rw [List.takeWhile_append_of_pos hl]
  cases rest with
  | nil => simp
  | cons b rest => rw [List.takeWhile_cons_of_neg (by simp [hr b rfl]), List.append_nil]

/-- A text is cut at the first byte of a kind. -/
theorem eq_of_append_cons {b : UInt8} {s' rest' : Bytes} (h : b ∉ s) (h' : b ∉ s')
    (heq : s ++ b :: rest = s' ++ b :: rest') : s = s' := by
  have hcut : ∀ {s r : Bytes}, b ∉ s → (s ++ b :: r).takeWhile (· != b) = s := by
    intro s r hs
    refine takeWhile_append (fun a ha => bne_iff_ne.2 fun h => hs (h ▸ ha)) ?_
    rintro _ ⟨⟩
    exact bne_self_eq_false b
  rw [← hcut (r := rest) h, heq, hcut h']

/-- Or at the last one. -/
theorem eq_of_append_cons_last {b : UInt8} {s' rest' : Bytes} (h : b ∉ rest) (h' : b ∉ rest')
    (heq : s ++ b :: rest = s' ++ b :: rest') : rest = rest' := by
  have hreverse : rest.reverse ++ b :: s.reverse = rest'.reverse ++ b :: s'.reverse := by
    simpa using congrArg List.reverse heq
  rw [← List.mem_reverse] at h h'
  exact List.reverse_injective (eq_of_append_cons h h' hreverse)

theorem head?_dropWhile (p : UInt8 → Bool) (s : Bytes) :
    ∀ b ∈ (s.dropWhile p).head?, p b = false := by
  intro b hb
  have := List.head?_dropWhile_not p s
  rw [Option.mem_def.1 hb] at this
  simpa using this

/-! ### Bytes of a class at the end -/

theorem trimEnd_append (hs : ∀ b ∈ s.getLast?, p b = false) (ht : ∀ b ∈ tail, p b = true) :
    trimEnd p (s ++ tail) = s := by
  unfold trimEnd
  rw [List.reverse_append, dropWhile_append (by simpa using ht) (by simpa using hs),
    List.reverse_reverse]

/-- More bytes of the class at the end make no difference. -/
theorem trimEnd_append_of_all (s : Bytes) (ht : ∀ b ∈ tail, p b = true) :
    trimEnd p (s ++ tail) = trimEnd p s := by
  unfold trimEnd
  rw [List.reverse_append, List.dropWhile_append_of_pos (by simpa using ht)]

theorem exists_trimEnd (p : UInt8 → Bool) (s : Bytes) :
    ∃ tail, s = trimEnd p s ++ tail ∧ ∀ b ∈ tail, p b = true :=
  ⟨s.rtakeWhile p, List.rdropWhile_append_rtakeWhile.symm,
    fun _ hb => List.mem_rtakeWhile_imp hb⟩

theorem getLast?_trimEnd (p : UInt8 → Bool) (s : Bytes) :
    ∀ b ∈ (trimEnd p s).getLast?, p b = false := by
  unfold trimEnd
  rw [List.getLast?_reverse]
  exact head?_dropWhile p s.reverse

/-! ### Both ends -/

/-- Cutting at the end leaves the first byte where it is. -/
theorem head?_trimEnd (hs : ∀ b ∈ s.head?, p b = false) :
    ∀ b ∈ (trimEnd p s).head?, p b = false := by
  obtain ⟨tail, h, -⟩ := exists_trimEnd p s
  intro b hb
  refine hs b ?_
  rw [h]
  cases ht : trimEnd p s with
  | nil => simp [ht] at hb
  | cons c t => simpa [ht] using hb

theorem bare_trim (p : UInt8 → Bool) (s : Bytes) : Bare p (trim p s) :=
  ⟨head?_trimEnd (head?_dropWhile p s), getLast?_trimEnd p (trimStart p s)⟩

theorem exists_trim (p : UInt8 → Bool) (s : Bytes) :
    ∃ lead tail, s = lead ++ trim p s ++ tail ∧ (∀ b ∈ lead, p b = true) ∧
      ∀ b ∈ tail, p b = true := by
  obtain ⟨tail, h, ht⟩ := exists_trimEnd p (trimStart p s)
  refine ⟨s.takeWhile p, tail, ?_, fun b hb => List.mem_takeWhile_imp hb, ht⟩
  calc s = s.takeWhile p ++ trimStart p s := List.takeWhile_append_dropWhile.symm
    _ = s.takeWhile p ++ trim p s ++ tail := by rw [List.append_assoc]; exact congrArg _ h

theorem trim_append (hl : ∀ b ∈ lead, p b = true) (hs : Bare p s) (ht : ∀ b ∈ tail, p b = true) :
    trim p (lead ++ s ++ tail) = s := by
  cases s with
  | nil =>
    -- nothing is left of a string that consists of bytes of the class
    have hall : ∀ b ∈ lead ++ [] ++ tail, p b = true := by
      simpa [or_imp, forall_and] using ⟨hl, ht⟩
    rw [trim, trimStart, List.dropWhile_eq_nil_iff.2 hall]
    rfl
  | cons b s =>
    have hb : ∀ c ∈ (b :: s ++ tail).head?, p c = false := by simpa using hs.1
    rw [trim, trimStart, List.append_assoc, dropWhile_append hl hb]
    exact trimEnd_append hs.2 ht

/-- A byte that is not of the class keeps what is before and behind it apart. -/
theorem trimStart_append_cons {b : UInt8} (hb : p b = false) (s t : Bytes) :
    trimStart p (s ++ b :: t) = trimStart p s ++ b :: t := by
  unfold trimStart
  rw [List.dropWhile_append]
  split
  · rename_i hs
    rw [List.isEmpty_iff.1 hs, List.dropWhile_cons_of_neg (by simp [hb]), List.nil_append]
  · rfl

theorem trimEnd_append_cons {b : UInt8} (hb : p b = false) (s t : Bytes) :
    trimEnd p (s ++ b :: t) = s ++ b :: trimEnd p t := by
  have h := congrArg List.reverse (trimStart_append_cons hb t.reverse s.reverse)
  simpa [trimEnd, trimStart] using h

theorem trim_append_cons {b : UInt8} (hb : p b = false) (s t : Bytes) :
    trim p (s ++ b :: t) = trimStart p s ++ b :: trimEnd p t := by
  rw [trim, trimStart_append_cons hb, trimEnd_append_cons hb]

/-- The first byte that is not of the class stays the first one. -/
theorem head?_trim (p : UInt8 → Bool) (s : Bytes) : (trim p s).head? = (trimStart p s).head? := by
  unfold trim
  cases h : trimStart p s with
  | nil => rfl
  | cons b rest =>
    have hb : p b = false := head?_dropWhile p s b (by rw [← trimStart, h]; rfl)
    have := trimEnd_append_cons hb [] rest
    rw [List.nil_append] at this
    rw [this]
    rfl

theorem notMem_of_all {b : UInt8} (hs : s.all p = true) (hb : p b = false) : b ∉ s := by
  intro hm
  rw [List.all_eq_true.1 hs b hm] at hb
  cases hb

/-! ### Lines -/

theorem notMem_of_mem_splitOn (a : UInt8) (s : Bytes) : ∀ line ∈ s.splitOn a, a ∉ line := by
  induction s with
  | nil => simp
  | cons b s ih =>
    rw [List.splitOn_cons_eq_if_modifyHead]
    by_cases hb : (b == a) = true
    · simpa [hb] using ih
    · obtain ⟨first, others, h⟩ := List.exists_cons_of_ne_nil (List.splitOn_ne_nil a s)
      have hab : a ≠ b := fun h => hb (by simp [h])
      rw [h] at ih ⊢
      rw [if_neg hb, List.modifyHead_cons]
      simp only [List.mem_cons, forall_eq_or_imp, not_or] at ih ⊢
      exact ⟨⟨hab, ih.1⟩, ih.2⟩

theorem notMem_of_mem_lines {text line : Bytes} (h : line ∈ text.lines) : ascii '\n' ∉ line :=
  notMem_of_mem_splitOn _ _ line h

theorem length_lines (s : Bytes) : (lines s).length = s.count (ascii '\n') + 1 := by
  induction s with
  | nil => rfl
  | cons b s ih =>
    unfold lines at ih ⊢
    rw [List.splitOn_cons_eq_if_modifyHead, List.count_cons]
    split
    · rw [List.length_cons, ih]
    · rw [List.length_modifyHead, ih]

/-- A byte that is no newline is put in front of the first line. -/
theorem lines_cons_of_ne {b : UInt8} (hb : b ≠ ascii '\n') (s : Bytes) :
    lines (b :: s) = (lines s).modifyHead (b :: ·) := by
  rw [lines, List.splitOn_cons_eq_if_modifyHead, if_neg (by simpa using hb)]
  rfl

/-- The lines of two texts with a newline between them. -/
theorem lines_join (s t : Bytes) : lines (s ++ ascii '\n' :: t) = lines s ++ lines t :=
  List.splitOn_append_cons_self s t

/-- The lines of texts that each end with a newline. -/
theorem lines_flatMap {texts : List Bytes} (h : ∀ text ∈ texts, ascii '\n' ∉ text) :
    lines (texts.flatMap (· ++ [ascii '\n'])) = texts ++ [[]] := by
  induction texts with
  | nil => rfl
  | cons text texts ih =>
    rw [List.forall_mem_cons] at h
    rw [List.flatMap_cons, List.append_assoc, List.singleton_append, lines,
      List.splitOn_append_cons_self_of_not_mem h.1]
    exact congrArg (text :: ·) (ih h.2)

end Bytes

end MacroConstants
