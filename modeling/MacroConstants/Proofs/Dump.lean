import MacroConstants.Dump
import MacroConstants.Proofs.Bytes

/-!
# What a line of a macro dump says

The reader of a line is compared with the shape a definition has: the word `#define`, blanks, a
name without blanks and, after further blanks, a text that no blank starts or ends.

* `Dump.withoutReturns` : a line without its final returns, which is all that is read of it.
* `Dump.Gives` : a line has the shape of a definition of a name as a text.
* `Dump.gives_unique` : it has that shape in one way only.
* `Dump.readLine_eq_object_iff` and its neighbours : what is read is what the shape says.
-/

namespace MacroConstants

namespace Dump

open Bytes

variable {line rest name text : Bytes}

/-- A line without its final returns. -/
def withoutReturns (line : Bytes) : Bytes := line.trimEnd (· == ascii '\r')

/-- A byte that is neither space nor tab. -/
def Solid (b : UInt8) : Prop := isBlank b = false

/-- The line defines a name as a text: the word `#define`, blanks, the name, blanks, the text,
blanks. -/
def Gives (line name text : Bytes) : Prop :=
  ∃ before between after : Bytes,
    line = bytes "#define" ++ before ++ name ++ between ++ text ++ after ∧
    before ≠ [] ∧ name ≠ [] ∧ (text ≠ [] → between ≠ []) ∧
    (∀ b ∈ before ++ between ++ after, isBlank b = true) ∧ (∀ b ∈ name, Solid b) ∧
    Bare isBlank text

theorem afterDirective?_eq_some_iff :
    afterDirective? line = some rest ↔
      ∃ b, isBlank b = true ∧ line = bytes "#define" ++ b :: rest := by
  unfold afterDirective?
  constructor
  · intro h
    split at h
    · rename_i b rest' hpre
      obtain ⟨hb, rfl⟩ : isBlank b = true ∧ rest' = rest := by simpa using h
      exact ⟨b, hb, (List.isPrefixOf?_eq_some_iff_append_eq.1 hpre).symm⟩
    · cases h
  · rintro ⟨b, hb, rfl⟩
    have hpre : (bytes "#define").isPrefixOf? (bytes "#define" ++ b :: rest) = some (b :: rest) :=
      List.isPrefixOf?_eq_some_iff_append_eq.2 rfl
    simp [hpre, hb]

/-- The name and the text that are cut out of what follows the word `#define` and a blank. -/
def cut (rest : Bytes) : Bytes × Bytes :=
  let rest := rest.trimStart isBlank
  (rest.takeWhile (!isBlank ·), Bytes.trim isBlank (rest.dropWhile (!isBlank ·)))

theorem cut_append {before between after : Bytes} (hname : name ≠ [])
    (hbetween : text ≠ [] → between ≠ [])
    (hblank : ∀ b ∈ before ++ between ++ after, isBlank b = true) (hsolid : ∀ b ∈ name, Solid b)
    (htext : Bare isBlank text) :
    cut (before ++ (name ++ (between ++ text ++ after))) = (name, text) := by
  simp only [List.mem_append, or_imp, forall_and] at hblank
  obtain ⟨⟨hbefore, hbetw⟩, hafter⟩ := hblank
  have hstart : ∀ b ∈ (name ++ (between ++ text ++ after)).head?, isBlank b = false := by
    cases name with
    | nil => exact absurd rfl hname
    | cons b name => simpa [Solid] using hsolid b List.mem_cons_self
  -- the name is followed by nothing or by a blank
  have hstop : ∀ b ∈ (between ++ text ++ after).head?, (!isBlank b) = false := by
    intro b hb
    cases between with
    | cons c between => simpa [← show c = b by simpa using hb] using hbetw c List.mem_cons_self
    | nil =>
      obtain rfl : text = [] := by
        by_contra ht
        exact hbetween ht rfl
      have := hafter b (List.mem_of_mem_head? (by simpa using hb))
      simp [this]
  have hname' : ∀ b ∈ name, (!isBlank b) = true := fun b hb => by
    rw [show isBlank b = false from hsolid b hb]; rfl
  unfold cut
  rw [trimStart, dropWhile_append hbefore hstart]
  simp only [takeWhile_append hname' hstop, dropWhile_append hname' hstop,
    trim_append hbetw htext hafter]

/-- The name and the text a line gives, if it has the shape of a definition. -/
def given? (line : Bytes) : Option (Bytes × Bytes) :=
  ((afterDirective? line).map cut).filter (·.1 ≠ [])

theorem given?_eq_some_iff : given? line = some (name, text) ↔ Gives line name text := by
  simp only [given?, Option.filter_eq_some_iff, Option.map_eq_some_iff, decide_eq_true_eq]
  constructor
  · rintro ⟨⟨rest, hafter, hcut⟩, hname⟩
    obtain ⟨b, hb, rfl⟩ := afterDirective?_eq_some_iff.1 hafter
    unfold cut at hcut
    obtain ⟨rfl, rfl⟩ := Prod.mk.inj hcut
    set body := rest.trimStart isBlank with hbody
    set value := body.dropWhile (!isBlank ·) with hvalue
    obtain ⟨lead, tail, hlt, hlead, htail⟩ := exists_trim isBlank value
    have hsplit : body = body.takeWhile (!isBlank ·) ++ value :=
      List.takeWhile_append_dropWhile.symm
    refine ⟨b :: rest.takeWhile isBlank, lead, tail, ?_, by simp, hname, ?_, ?_, ?_, bare_trim _ _⟩
    · have hrest : rest = rest.takeWhile isBlank ++ body :=
        List.takeWhile_append_dropWhile.symm
      conv_lhs => rw [hrest, hsplit, hlt]
      simp
    · -- a text right after the name would have been part of it
      rintro htext rfl
      cases ht : trim isBlank value with
      | nil => exact htext ht
      | cons c t =>
        have hsolid : isBlank c = false := (bare_trim isBlank value).1 c (by simp [ht])
        have hstop : ∀ d ∈ value.head?, (!isBlank d) = false := head?_dropWhile _ body
        rw [hlt, ht] at hstop
        simpa [hsolid] using hstop c (by simp)
    · intro c hc
      simp only [List.cons_append, List.mem_cons, List.mem_append] at hc
      rcases hc with rfl | (hc | hc) | hc
      · exact hb
      · exact List.mem_takeWhile_imp hc
      · exact hlead c hc
      · exact htail c hc
    · intro c hc
      simpa [Solid] using List.mem_takeWhile_imp hc
  · rintro ⟨before, between, after, rfl, hbefore, hname, hbetween, hblank, hsolid, htext⟩
    obtain ⟨b, before, rfl⟩ := List.exists_cons_of_ne_nil hbefore
    refine ⟨⟨before ++ (name ++ (between ++ text ++ after)), ?_, ?_⟩, hname⟩
    · refine afterDirective?_eq_some_iff.2 ⟨b, hblank b (by simp), by simp⟩
    · refine cut_append hname hbetween (fun c hc => hblank c ?_) hsolid htext
      simp only [List.cons_append]
      exact List.mem_cons_of_mem _ hc

/-- A line defines at most one name, and that as one text. -/
theorem gives_unique {name' text' : Bytes} (h : Gives line name text)
    (h' : Gives line name' text') : name' = name ∧ text' = text := by
  rw [← given?_eq_some_iff] at h h'
  exact Prod.mk.inj (Option.some.inj (h'.symm.trans h))

/-- A definition is no blank line. -/
theorem not_all_isSpace_of_gives (h : Gives line name text) : line.all isSpace = false := by
  obtain ⟨before, between, after, rfl, -⟩ := h
  have hword : (bytes "#define").all isSpace = false := by decide
  simp [hword]

/-! ### Reading a line -/

/-- What is read of a line. -/
theorem readLine_eq (line : Bytes) :
    readLine line =
      if (withoutReturns line).all isSpace then .blank
      else
        match given? (withoutReturns line) with
        | none => .unreadable (withoutReturns line)
        | some (name, text) =>
          if name.any isParenthesis then .function name else .object name text := by
  generalize hread : withoutReturns line = read
  unfold withoutReturns at hread
  simp only [readLine, hread, given?]
  by_cases hblank : read.all isSpace = true
  · rw [if_pos hblank, if_pos hblank]
  · rw [if_neg hblank, if_neg hblank]
    cases afterDirective? read with
    | none => rfl
    | some rest =>
      by_cases hname : (cut rest).1 = []
      · simp only [Option.map_some, Option.filter_some, hname]
        simp only [cut] at hname
        simp [hname]
      · simp only [Option.map_some, Option.filter_some, hname, ne_eq, not_false_eq_true,
          decide_true, if_true]
        simp only [cut] at hname ⊢
        simp only [List.isEmpty_iff, hname, if_false]
        rfl

theorem readLine_eq_object_iff :
    readLine line = .object name text ↔
      Gives (withoutReturns line) name text ∧ name.any isParenthesis = false := by
  rw [readLine_eq]
  constructor
  · intro h
    split at h
    · cases h
    · split at h
      · cases h
      · rename_i name' text' hgiven
        split at h
        · cases h
        · rename_i hany
          obtain ⟨rfl, rfl⟩ := Line.object.inj h
          exact ⟨given?_eq_some_iff.1 hgiven, by simpa using hany⟩
  · rintro ⟨h, hany⟩
    rw [not_all_isSpace_of_gives h, given?_eq_some_iff.2 h]
    simp [hany]

theorem readLine_eq_unreadable_iff {shown : Bytes} :
    readLine line = .unreadable shown ↔
      shown = withoutReturns line ∧ (withoutReturns line).all isSpace = false ∧
        ∀ name text, ¬ Gives (withoutReturns line) name text := by
  rw [readLine_eq]
  constructor
  · intro h
    split at h
    · cases h
    · rename_i hblank
      split at h
      · rename_i hgiven
        refine ⟨(Line.unreadable.inj h).symm, by simpa using hblank, fun name text hg => ?_⟩
        rw [given?_eq_some_iff.2 hg] at hgiven
        cases hgiven
      · split at h <;> cases h
  · rintro ⟨rfl, hblank, hnone⟩
    have hgiven : given? (withoutReturns line) = none :=
      Option.eq_none_iff_forall_ne_some.2 fun nt h => hnone nt.1 nt.2 (given?_eq_some_iff.1 h)
    rw [hblank, hgiven]
    rfl

/-! ### The lines in order -/

/-- The list holds exactly the things with a property, by increasing number. -/
structure Lists {α : Type} (number : α → ℕ) (P : α → Prop) (xs : List α) : Prop where
  increasing : xs.Pairwise fun a b => number a < number b
  mem_iff : ∀ a, a ∈ xs ↔ P a

theorem pairwise_zipIdx (lines : List Bytes) (k : ℕ) :
    (lines.zipIdx k).Pairwise fun a b => a.2 < b.2 := by
  induction lines generalizing k with
  | nil => exact List.Pairwise.nil
  | cons line lines ih =>
    refine List.Pairwise.cons (fun x hx => ?_) (ih (k + 1))
    exact Nat.lt_of_succ_le (List.le_snd_of_mem_zipIdx hx)

variable {α : Type} {text : Bytes}

/-- The lines are read one by one and then numbered. -/
theorem numbered_eq (text : Bytes) :
    numbered text =
      (text.lines.map readLine).zipIdx.map (Prod.map id fun i => (i + 1).toUInt32) := by
  rw [numbered, List.zipIdx_map, List.map_map]
  rfl

theorem toNat_number {i : ℕ} (hlen : text.lines.length < 2 ^ 32) {line : Bytes}
    (h : text.lines[i]? = some line) : (i + 1).toUInt32.toNat = i + 1 := by
  obtain ⟨hi, -⟩ := List.getElem?_eq_some_iff.1 h
  exact Nat.mod_eq_of_lt (by omega)

/-- What is taken from the lines of a dump that is short enough for 32 bits is in the order of
the lines. -/
theorem lists_filterMap (hlen : text.lines.length < 2 ^ 32) (number : α → ℕ)
    (f : Line × UInt32 → Option α) (hf : ∀ x a, f x = some a → number a = x.2.toNat) :
    Lists number
      (fun a => ∃ i line, text.lines[i]? = some line ∧
        f (readLine line, (i + 1).toUInt32) = some a)
      ((numbered text).filterMap f) := by
  constructor
  · have hnum : (numbered text).Pairwise fun a b => a.2.toNat < b.2.toNat := by
      rw [numbered, List.pairwise_map]
      refine (pairwise_zipIdx text.lines 0).imp_of_mem fun {x y} hx hy hxy => ?_
      rw [toNat_number hlen (List.mem_zipIdx_iff_getElem?.1 hx),
        toNat_number hlen (List.mem_zipIdx_iff_getElem?.1 hy)]
      omega
    refine hnum.filterMap f fun x y hxy a ha b hb => ?_
    rw [hf x a ha, hf y b hb]
    exact hxy
  · intro a
    simp only [numbered, List.mem_filterMap, List.mem_map, Prod.exists,
      List.mem_zipIdx_iff_getElem?]
    constructor
    · rintro ⟨l, n, ⟨line, i, hline, heq⟩, ha⟩
      obtain ⟨rfl, rfl⟩ := Prod.mk.inj heq
      exact ⟨i, line, hline, ha⟩
    · rintro ⟨i, line, hline, ha⟩
      exact ⟨_, _, ⟨line, i, hline, rfl⟩, ha⟩

/-- Line `i`, counted from zero, defines the name as the value; the name has no parenthesis and is
kept. -/
def Accepts (keep : Selector) (text : Bytes) (i : ℕ) (name value : Bytes) : Prop :=
  ∃ line, text.lines[i]? = some line ∧ Gives (withoutReturns line) name value ∧
    name.any isParenthesis = false ∧ keep name = true

/-- Line `i`, which reads `shown`, is neither blank nor a definition. -/
def Rejects (text : Bytes) (i : ℕ) (shown : Bytes) : Prop :=
  ∃ line, text.lines[i]? = some line ∧ shown = withoutReturns line ∧
    shown.all isSpace = false ∧ ∀ name value, ¬ Gives shown name value

/-- The warning at line `i`, which is reported counted from one. -/
def WarnsAt (i : ℕ) (message : Bytes) (f : Finding) : Prop :=
  f.level = .warning ∧ f.file = some (bytes "<macro-dump>") ∧ f.line.toNat = i + 1 ∧
    f.message = message

/-- A definition that is taken from a line is accepted there. -/
theorem accepts_of_definition? {keep : Selector} {i : ℕ} {line : Bytes} {n : UInt32}
    {d : Definition} (hline : text.lines[i]? = some line)
    (hd : definition? keep (readLine line, n) = some d) :
    Accepts keep text i d.name d.text ∧ d.line = n := by
  unfold definition? at hd
  split at hd
  · rename_i name value m heq
    obtain ⟨hread, rfl⟩ := Prod.mk.inj heq
    obtain ⟨hgives, hany⟩ := readLine_eq_object_iff.1 hread
    split at hd
    · rename_i hkeep
      rw [← Option.some.inj hd]
      exact ⟨⟨line, hline, hgives, hany, hkeep⟩, rfl⟩
    · cases hd
  · cases hd

/-- Every definition is accepted on some line. -/
theorem exists_accepts {keep : Selector} {d : Definition} (hd : d ∈ definitions keep text) :
    ∃ i, Accepts keep text i d.name d.text := by
  obtain ⟨x, hx, hd⟩ := List.mem_filterMap.1 hd
  obtain ⟨⟨line, i⟩, hline, rfl⟩ := List.mem_map.1 hx
  exact ⟨i, (accepts_of_definition? (List.mem_zipIdx_iff_getElem?.1 hline) hd).1⟩

/-- A definition has the number of its line. -/
theorem line_of_definition? {keep : Selector} {x : Line × UInt32} {d : Definition}
    (h : definition? keep x = some d) : d.line = x.2 := by
  obtain ⟨l, n⟩ := x
  cases l with
  | object name value =>
    simp only [definition?] at h
    split at h
    · rw [← Option.some.inj h]
    · cases h
  | _ => cases h

/-- A warning has the number of its line. -/
theorem line_of_warning? {x : Line × UInt32} {f : Finding} (h : warning? x = some f) :
    f.line = x.2 := by
  obtain ⟨l, n⟩ := x
  cases l with
  | unreadable shown => rw [← Option.some.inj h]
  | _ => cases h

theorem lists_definitions (keep : Selector) (hlen : text.lines.length < 2 ^ 32) :
    Lists (fun d => d.line.toNat)
      (fun d => ∃ i, d.line.toNat = i + 1 ∧ Accepts keep text i d.name d.text)
      (definitions keep text) := by
  have h := lists_filterMap hlen (fun d : Definition => d.line.toNat) (definition? keep)
    fun x d hd => congrArg UInt32.toNat (line_of_definition? hd)
  refine ⟨h.increasing, fun d => (h.mem_iff d).trans ?_⟩
  constructor
  · rintro ⟨i, line, hline, hd⟩
    obtain ⟨hacc, hnum⟩ := accepts_of_definition? hline hd
    exact ⟨i, hnum ▸ toNat_number hlen hline, hacc⟩
  · rintro ⟨i, hnum, line, hline, hgives, hany, hkeep⟩
    refine ⟨i, line, hline, ?_⟩
    rw [readLine_eq_object_iff.2 ⟨hgives, hany⟩]
    have hd : (i + 1).toUInt32 = d.line :=
      UInt32.toNat_inj.1 ((toNat_number hlen hline).trans hnum.symm)
    simp [definition?, hkeep, hd]

theorem lists_warnings (hlen : text.lines.length < 2 ^ 32) :
    Lists (fun f => f.line.toNat)
      (fun f => ∃ i shown, Rejects text i shown ∧
        WarnsAt i (bytes "unable to parse line: " ++ shown) f)
      (warnings text) := by
  have h := lists_filterMap hlen (fun f : Finding => f.line.toNat) warning?
    fun x f hf => congrArg UInt32.toNat (line_of_warning? hf)
  refine ⟨h.increasing, fun f => (h.mem_iff f).trans ?_⟩
  constructor
  · rintro ⟨i, line, hline, hf⟩
    unfold warning? at hf
    split at hf
    · rename_i shown n heq
      obtain ⟨hread, rfl⟩ := Prod.mk.inj heq
      obtain ⟨rfl, hblank, hnone⟩ := readLine_eq_unreadable_iff.1 hread
      rw [← Option.some.inj hf]
      exact ⟨i, _, ⟨line, hline, rfl, hblank, hnone⟩, rfl, rfl, toNat_number hlen hline, rfl⟩
    · cases hf
  · rintro ⟨i, _, ⟨line, hline, rfl, hblank, hnone⟩, hlevel, hfile, hnum, hmessage⟩
    refine ⟨i, line, hline, ?_⟩
    rw [readLine_eq_unreadable_iff.2 ⟨rfl, hblank, hnone⟩]
    have hd : (i + 1).toUInt32 = f.line :=
      UInt32.toNat_inj.1 ((toNat_number hlen hline).trans hnum.symm)
    obtain ⟨level, file, n, message⟩ := f
    simp only at hlevel hfile hd hmessage
    subst hlevel hfile hd hmessage
    rfl

end Dump

end MacroConstants
