import MacroConstants.Proofs.Json.Grammar
import MacroConstants.Report.Json

/-!
# Written documents

An array of flat objects is written as a JSON text exactly if every part of it can be: strings can
if they are UTF-8, numbers if they are tokens of the grammar.

* `Json.rewrites_escape` : escaping leaves the characters from 128 on alone.
* `Json.Leaf.Valid` : what can be written, `Json.Leaf.Recognised` : what the grammar takes or a
  reader of words refuses.
* `Json.isDocument_document` : from valid parts **an array with an object for each** is written.
* `Json.wellFormed_document_iff` : no other text is a JSON text.
-/

namespace MacroConstants.Json

variable {s t w : Bytes} {b : UInt8} {n : Mode}

/-! ### Strings -/

/-- Escaping writes ASCII in another way. -/
theorem rewrites_escape : Bytes.Rewrites escape where
  ascii := Bytes.forall_byte (by decide +kernel)
  ne_nil := Bytes.forall_byte (by decide +kernel)
  other := Bytes.forall_byte (by decide +kernel)

/-- What is behind the backslash and the letter where a control byte is written by its number. -/
def controlDigits (b : UInt8) : Bytes :=
  bytes "00" ++ (if b < 0x10 then bytes "0" else []) ++ Numeral.hexadecimal b.toNat

theorem controlDigits_spec (h : b < 0x20) :
    (controlDigits b).length = 4 ∧ (controlDigits b).all isHex = true :=
  Bytes.forall_byte
    (P := fun b => b < 0x20 → (controlDigits b).length = 4 ∧ (controlDigits b).all isHex = true)
    (by decide +kernel) b h

theorem chars_escape_append (hb : b < 0x80) (h : Chars s) : Chars (escape b ++ s) := by
  unfold escape
  split
  · rename_i he
    rcases he with rfl | rfl <;> exact .short rfl h
  rename_i hq
  split
  · exact .short (b := ascii 't') rfl h
  split
  · exact .short (b := ascii 'n') rfl h
  split
  · exact .short (b := ascii 'r') rfl h
  split
  · rename_i hc
    obtain ⟨hl, hh⟩ := controlDigits_spec hc
    exact .long hl hh h
  · rename_i hc
    obtain ⟨c, hcn, hcb⟩ := Bytes.exists_utf8EncodeChar_eq hb
    rw [← hcb]
    refine .plain ?_ ?_ ?_ h
    · have hge : ¬b.toNat < 0x20 := fun hlt => hc (UInt8.lt_iff_toNat_lt.2 hlt)
      omega
    · rintro rfl
      exact hq (.inl (UInt8.toNat_inj.1 hcn))
    · rintro rfl
      exact hq (.inr (UInt8.toNat_inj.1 hcn))

theorem chars_escape (h : Bytes.IsUtf8 s) : Chars (s.flatMap escape) := by
  obtain ⟨cs, rfl⟩ := h
  induction cs with
  | nil => exact .nil
  | cons c cs ih =>
    have hu : Bytes.utf8 (c :: cs) = String.utf8EncodeChar c ++ Bytes.utf8 cs := rfl
    rw [hu, List.flatMap_append]
    rcases Bytes.utf8EncodeChar_cases c with ⟨b, hb, -, he⟩ | ⟨hc, hne⟩
    · rw [he, List.flatMap_singleton]
      exact chars_escape_append hb ih
    · -- The bytes of other characters need no escapes.
      rw [rewrites_escape.flatMap_of_not_lt hne]
      refine .plain (by omega) ?_ ?_ ih
      · rintro rfl; revert hc; decide
      · rintro rfl; revert hc; decide

/-- A string that is UTF-8 is written as a string. -/
theorem derives_quote (h : Bytes.IsUtf8 s) : Derives (.value .string) (quote s) :=
  .string (chars_escape h)

theorem scan_escape (s : Bytes) : scan .inside (s.flatMap escape) = some .inside := by
  induction s with
  | nil => rfl
  | cons b s ih =>
    have hb : scan .inside (escape b) = some .inside :=
      Bytes.forall_byte (P := fun b => scan .inside (escape b) = some .inside) (by decide +kernel) b
    rw [List.flatMap_cons, scan_append hb, ih]

/-- A string is read to its end, UTF-8 or not. -/
theorem scan_quote (s : Bytes) : scan .outside (quote s) = some .outside := by
  unfold quote
  rw [List.cons_append, scan_cons (n := .inside) rfl, scan_append (scan_escape s)]
  rfl

/-! ### Values without parts -/

namespace Leaf

/-- The kind of the value. -/
def shape : Leaf → Shape
  | null => .null
  | string _ => .string
  | number _ => .number

/-- What can be written: strings if they are UTF-8, numbers if they are tokens. -/
def Valid : Leaf → Prop
  | null => True
  | string text => Bytes.IsUtf8 text
  | number text => Number text

/-- The text is a token of a number, or a reader of words refuses it. -/
def Recognised : Leaf → Prop
  | number text => Number text ∨ scan .outside text = none
  | _ => True

variable {l : Leaf}

theorem Valid.derives (h : l.Valid) : Derives (.value l.shape) l.render := by
  cases l with
  | null => exact .null
  | string text => exact derives_quote h
  | number text => exact .number h

end Leaf

/-! ### Lines -/

@[simp] theorem separated_nil : separated [] = [] := rfl

@[simp] theorem separated_singleton (l : Bytes) : separated [l] = l := List.intercalate_singleton

theorem separated_cons_cons (l l' : Bytes) (ls : List Bytes) :
    separated (l :: l' :: ls) = l ++ ascii ',' :: ascii '\n' :: separated (l' :: ls) := by
  unfold separated
  rw [List.intercalate_cons_cons, List.append_assoc]
  rfl

/-- Lines that are items, whatever the blanks around them, are written as items in a row. -/
theorem derives_separated {α : Type} {k : Kind} {f : α → Shape} {g : α → Bytes} {xs : List α}
    (h : ∀ x ∈ xs, ∀ v w, isBlank v = true → isBlank w = true →
      Derives (.item k (f x)) (v ++ g x ++ w))
    (hne : xs ≠ []) (hw : isBlank w = true) :
    Derives (.items k (xs.map f)) (ascii '\n' :: (separated (xs.map g) ++ w)) := by
  induction xs with
  | nil => exact absurd rfl hne
  | cons x xs ih =>
    rcases xs with _ | ⟨y, ys⟩
    · have hg : separated ([x].map g) = g x := separated_singleton _
      rw [hg]
      exact .last (h x (by simp) [ascii '\n'] w rfl hw)
    -- the line end is a blank of the item that follows it
    · have hx := h x (by simp) [ascii '\n'] [] rfl rfl
      have hg : separated ((x :: y :: ys).map g) =
          g x ++ ascii ',' :: ascii '\n' :: separated ((y :: ys).map g) := separated_cons_cons ..
      rw [List.append_nil] at hx
      rw [hg, List.append_assoc]
      exact .more hx (ih (fun z hz => h z (List.mem_cons_of_mem _ hz)) (by simp))

/-! ### Members, objects and documents -/

/-- The kind of a flat object. -/
def Object.shape (o : Object) : Shape := .object (o.map fun m => m.2.shape)

/-- Every key and every value of the object can be written. -/
def Object.Valid (o : Object) : Prop := ∀ m ∈ o, Bytes.IsUtf8 m.1 ∧ m.2.Valid

theorem isBlank_append : isBlank (s ++ t) = (isBlank s && isBlank t) := List.all_append

theorem derives_member {m : Bytes × Leaf} {v w : Bytes} (hk : Bytes.IsUtf8 m.1) (hl : m.2.Valid)
    (hv : isBlank v = true) (hw : isBlank w = true) :
    Derives (.item .member m.2.shape) (v ++ member m ++ w) := by
  have hi : isBlank (v ++ bytes "    ") = true := by rw [isBlank_append, hv]; rfl
  have he : Derives (.item .element m.2.shape) (bytes " " ++ m.2.render ++ w) :=
    .element rfl hl.derives hw
  have hm := Derives.member hi (derives_quote hk) (w := []) rfl he
  have hb : bytes ": " = ascii ':' :: bytes " " := rfl
  simpa only [member, hb, List.append_assoc, List.append_nil, List.cons_append] using hm

theorem derives_object {o : Object} {v w : Bytes} (ho : o.Valid) (hv : isBlank v = true)
    (hw : isBlank w = true) : Derives (.item .element o.shape) (v ++ object o ++ w) := by
  have hbody : Derives (.value o.shape)
      (ascii '\x7b' :: (ascii '\n' :: (separated (o.map member) ++ bytes "\n  ")) ++
        [ascii '\x7d']) := by
    by_cases hne : o = []
    · subst hne
      exact .emptyObject rfl
    · exact .object (derives_separated
        (fun m hm v w => derives_member (ho m hm).1 (ho m hm).2) hne rfl)
  have hi : isBlank (v ++ bytes "  ") = true := by rw [isBlank_append, hv]; rfl
  have ho := Derives.element hi hbody hw
  have h₁ : bytes "  \x7b\n" = bytes "  " ++ [ascii '\x7b', ascii '\n'] := rfl
  have h₂ : bytes "\n  \x7d" = bytes "\n  " ++ [ascii '\x7d'] := rfl
  simpa only [object, h₁, h₂, List.append_assoc, List.cons_append, List.nil_append] using ho

/-- **From valid parts an array with an object for each is written.** -/
theorem isDocument_document {os : List Object} (h : ∀ o ∈ os, o.Valid) :
    IsDocument (.array (os.map Object.shape)) (document os) := by
  have hbody : Derives (.value (.array (os.map Object.shape))) (array os) := by
    unfold array
    split
    · rename_i he
      rw [List.isEmpty_iff] at he
      subst he
      exact .emptyArray (w := []) rfl
    · rename_i hne
      have hitems := derives_separated (w := bytes "\n") (fun o ho v w => derives_object (h o ho))
        (by simpa using hne) rfl
      have h₁ : bytes "[\n" = [ascii '[', ascii '\n'] := rfl
      have h₂ : bytes "\n]" = bytes "\n" ++ [ascii ']'] := rfl
      simpa only [h₁, h₂, List.append_assoc, List.cons_append, List.nil_append] using
        Derives.array hitems
  exact Derives.element (v := []) rfl hbody rfl

/-! ### Documents that are no JSON texts -/

/-- A reader of the text is not refused and ends outside of strings. -/
def Accepted (s : Bytes) : Prop := scan .outside s = some .outside

/-- A reader of the text is refused or ends outside of strings. -/
def Ends (s : Bytes) : Prop := ∀ m, scan .outside s = some m → m = .outside

theorem Accepted.ends (h : Accepted s) : Ends s := fun _ hm => Option.some.inj (hm.symm.trans h)

theorem Accepted.append (hs : Accepted s) (ht : Accepted t) : Accepted (s ++ t) :=
  (scan_append hs).trans ht

/-- Whoever gets through a text has got to where its first part ends. -/
theorem exists_scan_of_append {m : Mode} (h : scan .outside (s ++ t) = some m) :
    ∃ n, scan .outside s = some n ∧ scan n t = some m := by
  rw [scan, List.foldlM_append, ← scan] at h
  rcases hn : scan .outside s with _ | n
  · rw [hn] at h
    cases h
  · rw [hn] at h
    exact ⟨n, rfl, h⟩

theorem Ends.append (hs : Ends s) (ht : Ends t) : Ends (s ++ t) := by
  intro m h
  obtain ⟨n, hn, hm⟩ := exists_scan_of_append h
  obtain rfl := hs n hn
  exact ht m hm

theorem Ends.accepted_of_append (hs : Ends s) (h : Accepted (s ++ t)) :
    Accepted s ∧ Accepted t := by
  obtain ⟨n, hn, hm⟩ := exists_scan_of_append h
  obtain rfl := hs n hn
  exact ⟨hn, hm⟩

theorem Ends.enclosed {a c : Bytes} (hs : Ends s) (ha : Accepted a) (hc : Accepted c) :
    Ends (a ++ s ++ c) :=
  (ha.ends.append hs).append hc.ends

theorem accepted_of_enclosed {a c : Bytes} (h : Accepted (a ++ s ++ c)) (hs : Ends s)
    (ha : Accepted a) : Accepted s :=
  (ha.ends.accepted_of_append ((ha.ends.append hs).accepted_of_append h).1).2

theorem ends_separated {ls : List Bytes} (h : ∀ l ∈ ls, Ends l) : Ends (separated ls) := by
  induction ls with
  | nil => exact Accepted.ends rfl
  | cons l ls ih =>
    rcases ls with _ | ⟨l', ls⟩
    · simpa using h
    · have hc : Accepted [ascii ',', ascii '\n'] := rfl
      have hls := ih fun k hk => h k (List.mem_cons_of_mem _ hk)
      exact separated_cons_cons l l' ls ▸ (h l (by simp)).append (hc.ends.append hls)

theorem accepted_of_separated {ls : List Bytes} (h : ∀ l ∈ ls, Ends l)
    (ha : Accepted (separated ls)) : ∀ l ∈ ls, Accepted l := by
  induction ls with
  | nil => simp
  | cons l ls ih =>
    rcases ls with _ | ⟨l', ls⟩
    · simpa using ha
    · have hc : Accepted [ascii ',', ascii '\n'] := rfl
      rw [separated_cons_cons] at ha
      obtain ⟨hl, hrest⟩ := (h l (by simp)).accepted_of_append ha
      have hls := (hc.ends.accepted_of_append (t := separated (l' :: ls)) hrest).2
      exact List.forall_mem_cons.2 ⟨hl, ih (fun k hk => h k (List.mem_cons_of_mem _ hk)) hls⟩

namespace Leaf

variable {l : Leaf}

theorem Recognised.ends (h : l.Recognised) : Ends l.render := by
  cases l with
  | null => exact Accepted.ends rfl
  | string text => exact Accepted.ends (scan_quote text)
  | number text =>
    rcases h with h | h
    · exact Accepted.ends h.scan_eq
    · intro m hm
      cases h.symm.trans hm

theorem Recognised.valid (h : l.Recognised) (ha : Accepted l.render)
    (hs : ∀ text, l = .string text → Bytes.IsUtf8 text) : l.Valid := by
  cases l with
  | null => trivial
  | string text => exact hs text rfl
  | number text =>
    rcases h with h | h
    · exact h
    · cases h.symm.trans ha

end Leaf

theorem accepted_key (k : Bytes) : Accepted (bytes "    " ++ quote k ++ bytes ": ") :=
  Accepted.append (Accepted.append rfl (scan_quote k)) rfl

theorem ends_member {m : Bytes × Leaf} (h : m.2.Recognised) : Ends (member m) :=
  (accepted_key m.1).ends.append h.ends

theorem accepted_of_member {m : Bytes × Leaf} (h : Accepted (member m)) : Accepted m.2.render :=
  ((accepted_key m.1).ends.accepted_of_append h).2

namespace Object

variable {o : Object}

/-- Every value of the object is recognised. -/
def Recognised (o : Object) : Prop := ∀ m ∈ o, m.2.Recognised

theorem Recognised.ends_members (h : o.Recognised) : ∀ l ∈ o.map member, Ends l :=
  List.forall_mem_map.2 fun m hm => ends_member (h m hm)

theorem Recognised.ends (h : o.Recognised) : Ends (object o) :=
  (ends_separated h.ends_members).enclosed rfl rfl

theorem Recognised.accepted (h : o.Recognised) (ha : Accepted (object o)) :
    ∀ m ∈ o, Accepted m.2.render := by
  have hs := accepted_of_enclosed ha (ends_separated h.ends_members) rfl
  intro m hm
  exact accepted_of_member (accepted_of_separated h.ends_members hs _ (List.mem_map_of_mem hm))

end Object

theorem document_of_ne_nil {os : List Object} (h : os ≠ []) :
    document os = bytes "[\n" ++ separated (os.map object) ++ bytes "\n]\n" := by
  have hend : bytes "\n]\n" = bytes "\n]" ++ bytes "\n" := rfl
  simp only [document, array, List.isEmpty_eq_false_iff.2 h, hend, Bool.false_eq_true, ↓reduceIte,
    List.append_assoc]

theorem accepted_of_document {os : List Object} (h : ∀ o ∈ os, o.Recognised)
    (ha : Accepted (document os)) : ∀ o ∈ os, Accepted (object o) := by
  have hends : ∀ l ∈ os.map object, Ends l := List.forall_mem_map.2 fun o ho => (h o ho).ends
  intro o ho
  rw [document_of_ne_nil (List.ne_nil_of_mem ho)] at ha
  have hs := accepted_of_enclosed ha (ends_separated hends) rfl
  exact accepted_of_separated hends hs _ (List.mem_map_of_mem ho)

/-! ### Strings in documents that are UTF-8 -/

theorem isInfix_separated {l : Bytes} {ls : List Bytes} (h : l ∈ ls) : l <:+: separated ls := by
  induction ls with
  | nil => cases h
  | cons k ls ih =>
    rcases ls with _ | ⟨k', ls⟩
    · obtain rfl := List.mem_singleton.1 h
      exact (separated_singleton l).symm ▸ List.infix_rfl
    · rw [separated_cons_cons]
      rcases List.mem_cons.1 h with rfl | h
      · exact (List.prefix_append ..).isInfix
      · exact (ih h).trans ⟨k ++ [ascii ',', ascii '\n'], [], by simp⟩

theorem render_isInfix_document {os : List Object} {o : Object} {m : Bytes × Leaf} (ho : o ∈ os)
    (hm : m ∈ o) : m.2.render <:+: document os := by
  have h₁ : m.2.render <:+: member m := (List.suffix_append ..).isInfix
  have h₂ : member m <:+: object o :=
    (isInfix_separated (List.mem_map_of_mem hm)).trans (List.infix_append ..)
  have h₃ : object o <:+: document os := by
    rw [document_of_ne_nil (List.ne_nil_of_mem ho)]
    exact (isInfix_separated (List.mem_map_of_mem ho)).trans (List.infix_append ..)
  exact (h₁.trans h₂).trans h₃

/-- A string is UTF-8 if a text is UTF-8 in which it is written. -/
theorem isUtf8_of_quote_isInfix (h : quote t <:+: s) (hs : Bytes.IsUtf8 s) : Bytes.IsUtf8 t := by
  obtain ⟨a, c, rfl⟩ := h
  have he : a ++ quote t ++ c = a ++ ascii '"' :: (t.flatMap escape ++ ascii '"' :: c) := by
    simp [quote]
  -- the quotation marks cut the text where a character begins
  rw [he, Bytes.isUtf8_append_cons_iff (by decide), Bytes.isUtf8_append_cons_iff (by decide)] at hs
  exact rewrites_escape.isUtf8_flatMap_iff.1 hs.2.1

/-- **Exactly from valid parts a JSON text is written**, if the keys are UTF-8 and all numbers that
are no tokens are refused by a reader of words. -/
theorem wellFormed_document_iff {os : List Object} (hk : ∀ o ∈ os, ∀ m ∈ o, Bytes.IsUtf8 m.1)
    (hr : ∀ o ∈ os, o.Recognised) : WellFormed (document os) ↔ ∀ o ∈ os, o.Valid := by
  constructor
  · rintro ⟨t, h⟩ o ho m hm
    have ha := (hr o ho).accepted (accepted_of_document hr h.scan_eq o ho) m hm
    refine ⟨hk o ho m hm, (hr o ho m hm).valid ha fun text hl => ?_⟩
    have hi := render_isInfix_document ho hm
    rw [hl] at hi
    exact isUtf8_of_quote_isInfix hi h.isUtf8
  · exact fun h => ⟨_, isDocument_document h⟩

end MacroConstants.Json
