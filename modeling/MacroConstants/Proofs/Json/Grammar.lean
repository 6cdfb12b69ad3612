import MacroConstants.Proofs.Utf8

/-!
# The grammar of JSON

The texts of JSON values as a derivation over bytes, and two things that every such text has in
common, by which a text can be recognised as none.

* `Json.Shape` : what kind of value a text spells, down to the parts of arrays and objects.
* `Json.Number`, `Json.Chars` : the tokens of numbers and the insides of strings.
* `Json.Derives` : **the grammar**; `Json.IsDocument` : a value with blanks around it.
* `Json.Derives.isUtf8` : a JSON text is UTF-8.
* `Json.Derives.scan_eq` : outside of strings there is no `i`, and no `n` but before a `u`.
-/

namespace MacroConstants.Json

/-- The kind of a value; of arrays and objects also the kinds of their parts in order. -/
inductive Shape where
  | null
  | boolean
  | number
  | string
  | array (items : List Shape)
  | object (members : List Shape)

/-! ### Tokens -/

/-- Spaces, tabs, newlines and returns. -/
def isBlank (s : Bytes) : Bool := s.all Bytes.isLayout

/-- A hexadecimal digit of either case. -/
def isHex (b : UInt8) : Bool :=
  Bytes.isDigit b || (ascii 'a' ≤ b && b ≤ ascii 'f') || (ascii 'A' ≤ b && b ≤ ascii 'F')

/-- At least one decimal digit. -/
def Digits (s : Bytes) : Prop := s ≠ [] ∧ s.all Bytes.isDigit = true

/-- A zero, or digits that do not start with a zero. -/
def Whole (s : Bytes) : Prop := s = [ascii '0'] ∨ Digits s ∧ s.head? ≠ some (ascii '0')

/-- Nothing, or a point and digits. -/
inductive Fraction : Bytes → Prop
  | none : Fraction []
  | some {s : Bytes} : Digits s → Fraction (ascii '.' :: s)

/-- Nothing, or a letter, perhaps a sign, and digits. -/
inductive Exponent : Bytes → Prop
  | none : Exponent []
  | some {e : UInt8} {sign s : Bytes} : e = ascii 'e' ∨ e = ascii 'E' →
      sign = [] ∨ sign = [ascii '+'] ∨ sign = [ascii '-'] → Digits s →
      Exponent (e :: (sign ++ s))

/-- The token of a number without a sign. -/
inductive Magnitude : Bytes → Prop
  | mk {w f e : Bytes} : Whole w → Fraction f → Exponent e → Magnitude (w ++ f ++ e)

/-- The token of a number. -/
inductive Number : Bytes → Prop
  | plain {s : Bytes} : Magnitude s → Number s
  | minus {s : Bytes} : Magnitude s → Number (ascii '-' :: s)

/-- What may follow a backslash and stand for one character. -/
def isEscape (b : UInt8) : Bool := (bytes "\"\\/bfnrt").contains b

/-- What may stand between the quotes of a string. -/
inductive Chars : Bytes → Prop
  | nil : Chars []
  | plain {c : Char} {s : Bytes} : 0x20 ≤ c.toNat → c ≠ '"' → c ≠ '\\' → Chars s →
      Chars (String.utf8EncodeChar c ++ s)
  | short {b : UInt8} {s : Bytes} : isEscape b = true → Chars s → Chars (ascii '\\' :: b :: s)
  | long {h s : Bytes} : h.length = 4 → h.all isHex = true → Chars s →
      Chars (ascii '\\' :: ascii 'u' :: (h ++ s))

/-! ### Values -/

/-- Whether values or members are listed. -/
inductive Kind where
  | element
  | member

/-- What a part of a text spells: a value, one item with the blanks around it, or items in a
row. -/
inductive Phrase where
  | value (t : Shape)
  | item (kind : Kind) (t : Shape)
  | items (kind : Kind) (ts : List Shape)

/-- **The grammar.** -/
inductive Derives : Phrase → Bytes → Prop
  | null : Derives (.value .null) (bytes "null")
  | no : Derives (.value .boolean) (bytes "false")
  | yes : Derives (.value .boolean) (bytes "true")
  | number {s : Bytes} : Number s → Derives (.value .number) s
  | string {s : Bytes} : Chars s → Derives (.value .string) (ascii '"' :: s ++ [ascii '"'])
  | emptyArray {w : Bytes} : isBlank w = true →
      Derives (.value (.array [])) (ascii '[' :: w ++ [ascii ']'])
  | array {ts : List Shape} {s : Bytes} : Derives (.items .element ts) s →
      Derives (.value (.array ts)) (ascii '[' :: s ++ [ascii ']'])
  | emptyObject {w : Bytes} : isBlank w = true →
      Derives (.value (.object [])) (ascii '\x7b' :: w ++ [ascii '\x7d'])
  | object {ts : List Shape} {s : Bytes} : Derives (.items .member ts) s →
      Derives (.value (.object ts)) (ascii '\x7b' :: s ++ [ascii '\x7d'])
  | element {t : Shape} {v s w : Bytes} : isBlank v = true → Derives (.value t) s →
      isBlank w = true → Derives (.item .element t) (v ++ s ++ w)
  | member {t : Shape} {v k w s : Bytes} : isBlank v = true → Derives (.value .string) k →
      isBlank w = true → Derives (.item .element t) s →
      Derives (.item .member t) (v ++ k ++ w ++ ascii ':' :: s)
  | last {k : Kind} {t : Shape} {s : Bytes} : Derives (.item k t) s → Derives (.items k [t]) s
  | more {k : Kind} {t : Shape} {ts : List Shape} {s rest : Bytes} : Derives (.item k t) s →
      Derives (.items k ts) rest → Derives (.items k (t :: ts)) (s ++ ascii ',' :: rest)

/-- A whole text: a value with blanks around it. -/
def IsDocument (t : Shape) (s : Bytes) : Prop := Derives (.item .element t) s

/-- Some JSON text. -/
def WellFormed (s : Bytes) : Prop := ∃ t, IsDocument t s

variable {p : Phrase} {s t : Bytes} {b : UInt8}

/-! ### The bytes of tokens -/

/-- The bytes that tokens of numbers are made of. -/
def isNumeric (b : UInt8) : Bool := Bytes.isDigit b || (bytes "+-.eE").contains b

theorem isNumeric_of_isDigit (h : Bytes.isDigit b = true) : isNumeric b = true := by
  simp [isNumeric, h]

theorem Digits.all_isNumeric (h : Digits s) : s.all isNumeric = true :=
  Bytes.all_imp (fun _ => isNumeric_of_isDigit) h.2

theorem Whole.all_isNumeric (h : Whole s) : s.all isNumeric = true := by
  rcases h with rfl | ⟨h, -⟩
  · rfl
  · exact h.all_isNumeric

theorem Fraction.all_isNumeric (h : Fraction s) : s.all isNumeric = true := by
  cases h with
  | none => rfl
  | some hs => exact List.all_cons ▸ hs.all_isNumeric

theorem Exponent.all_isNumeric (h : Exponent s) : s.all isNumeric = true := by
  cases h with
  | none => rfl
  | some he hsign hs =>
    rw [List.all_cons, List.all_append, hs.all_isNumeric]
    rcases he with rfl | rfl <;> rcases hsign with rfl | rfl | rfl <;> rfl

theorem Magnitude.all_isNumeric (h : Magnitude s) : s.all isNumeric = true := by
  cases h with
  | mk hw hf he =>
    simp only [List.all_append, hw.all_isNumeric, hf.all_isNumeric, he.all_isNumeric, Bool.and_self]

theorem Number.all_isNumeric (h : Number s) : s.all isNumeric = true := by
  cases h with
  | plain h => exact h.all_isNumeric
  | minus h => exact List.all_cons ▸ h.all_isNumeric

/-! ### Every text is UTF-8 -/

theorem isAscii_of_isBlank (h : isBlank s = true) : Bytes.isAscii s = true :=
  Bytes.all_imp (Bytes.forall_byte (by decide +kernel)) h

theorem Number.isAscii (h : Number s) : Bytes.isAscii s = true :=
  Bytes.all_imp (Bytes.forall_byte (by decide +kernel)) h.all_isNumeric

theorem Chars.isUtf8 (h : Chars s) : Bytes.IsUtf8 s := by
  induction h with
  | nil => exact Bytes.isUtf8_nil
  | plain _ _ _ _ ih => exact (Bytes.isUtf8_utf8EncodeChar _).append ih
  | @short b s hb _ ih =>
    have hb : b < 0x80 :=
      Bytes.forall_byte (P := fun b => isEscape b = true → b < 0x80) (by decide +kernel) b hb
    exact (ih.cons hb).cons (by decide)
  | long _ hh _ ih =>
    have hh : Bytes.isAscii _ = true := Bytes.all_imp (Bytes.forall_byte (by decide +kernel)) hh
    exact (((Bytes.isUtf8_of_isAscii hh).append ih).cons (by decide)).cons (by decide)

theorem isUtf8_of_isBlank (h : isBlank s = true) : Bytes.IsUtf8 s :=
  Bytes.isUtf8_of_isAscii (isAscii_of_isBlank h)

/-- **A JSON text is UTF-8.** -/
theorem Derives.isUtf8 (h : Derives p s) : Bytes.IsUtf8 s := by
  have delimited {a b : UInt8} {s : Bytes} (hs : Bytes.IsUtf8 s) (ha : a < 0x80) (hb : b < 0x80) :
      Bytes.IsUtf8 (a :: s ++ [b]) :=
    (hs.cons ha).append (Bytes.isUtf8_nil.cons hb)
  induction h with
  | null => exact Bytes.isUtf8_of_isAscii rfl
  | no => exact Bytes.isUtf8_of_isAscii rfl
  | yes => exact Bytes.isUtf8_of_isAscii rfl
  | number h => exact Bytes.isUtf8_of_isAscii h.isAscii
  | string h => exact delimited h.isUtf8 (by decide) (by decide)
  | emptyArray hw => exact delimited (isUtf8_of_isBlank hw) (by decide) (by decide)
  | array _ ih => exact delimited ih (by decide) (by decide)
  | emptyObject hw => exact delimited (isUtf8_of_isBlank hw) (by decide) (by decide)
  | object _ ih => exact delimited ih (by decide) (by decide)
  | element hv _ hw ih => exact ((isUtf8_of_isBlank hv).append ih).append (isUtf8_of_isBlank hw)
  | member hv _ hw _ ihk ihs =>
    exact (((isUtf8_of_isBlank hv).append ihk).append (isUtf8_of_isBlank hw)).append
      (ihs.cons (by decide))
  | last _ ih => exact ih
  | more _ _ ih ihs => exact ih.append (ihs.cons (by decide))

/-! ### What stands outside of strings -/

/-- Where a reader of a text is, who knows of strings and of the letters of a few words. -/
inductive Mode where
  | outside
  /-- Behind an `n`. -/
  | afterN
  | inside
  /-- Behind a backslash. -/
  | escaped
  deriving DecidableEq

/-- The mode after a byte.  No word has an `i`, and where one has an `n` a `u` comes next. -/
def Mode.step : Mode → UInt8 → Option Mode
  | .outside, b =>
    if b = ascii '"' then some .inside
    else if b = ascii 'n' then some .afterN
    else if b = ascii 'i' then none
    else some .outside
  | .afterN, b => if b = ascii 'u' then some .outside else none
  | .inside, b =>
    if b = ascii '"' then some .outside else if b = ascii '\\' then some .escaped else some .inside
  | .escaped, _ => some .inside

/-- The mode after a text, if there is one. -/
def scan (m : Mode) (s : Bytes) : Option Mode := s.foldlM Mode.step m

variable {m n : Mode}

theorem scan_append (h : scan m s = some n) : scan m (s ++ t) = scan n t := by
  unfold scan at h ⊢
  rw [List.foldlM_append, h]
  rfl

theorem scan_cons (h : m.step b = some n) : scan m (b :: s) = scan n s := by
  unfold scan
  rw [List.foldlM_cons, h]
  rfl

/-- Bytes that keep the mode keep it together. -/
theorem scan_of_all {q : UInt8 → Bool} (hq : ∀ b, q b = true → m.step b = some m)
    (h : s.all q = true) : scan m s = some m := by
  induction s with
  | nil => rfl
  | cons b s ih =>
    simp only [List.all_cons, Bool.and_eq_true] at h
    rw [scan_cons (hq b h.1), ih h.2]

theorem scan_of_isBlank (h : isBlank s = true) : scan .outside s = some .outside :=
  scan_of_all (Bytes.forall_byte (by decide +kernel)) h

theorem Number.scan_eq (h : Number s) : scan .outside s = some .outside :=
  scan_of_all (Bytes.forall_byte (by decide +kernel)) h.all_isNumeric

theorem ne_ascii {c d : Char} (hb : b.toNat = c.toNat) (hd : d.toNat < 0x80) (h : c ≠ d) :
    b ≠ ascii d := by
  rintro rfl
  have hb : d.toNat % 256 = c.toNat := hb
  exact h (Char.toNat_inj.1 (by omega))

theorem scan_utf8EncodeChar {c : Char} (hq : c ≠ '"') (hb : c ≠ '\\') :
    scan .inside (String.utf8EncodeChar c) = some .inside := by
  rcases Bytes.utf8EncodeChar_cases c with ⟨b, -, hc, he⟩ | ⟨-, hne⟩
  · rw [he]
    refine scan_cons ?_
    simp only [Mode.step, ne_ascii hc (d := '"') (by decide) hq,
      ne_ascii hc (d := '\\') (by decide) hb, ↓reduceIte]
  -- no byte of a longer character is a quotation mark or a backslash
  · refine scan_of_all (q := fun b => !decide (b < 0x80)) (Bytes.forall_byte (by decide +kernel)) ?_
    simpa using hne

theorem Chars.scan_eq (h : Chars s) : scan .inside s = some .inside := by
  induction h with
  | nil => rfl
  | plain _ hq hb _ ih => rw [scan_append (scan_utf8EncodeChar hq hb), ih]
  | short _ _ ih => rw [scan_cons (n := .escaped) rfl, scan_cons rfl, ih]
  | long _ hh _ ih =>
    have hh := scan_of_all (m := .inside) (Bytes.forall_byte (by decide +kernel)) hh
    rw [scan_cons (n := .escaped) rfl, scan_cons rfl, scan_append hh, ih]

/-- **A reader of a JSON text that started outside of strings ends there.** -/
theorem Derives.scan_eq (h : Derives p s) : scan .outside s = some .outside := by
  have delimited {a b : UInt8} {m : Mode} {s : Bytes} (hs : scan m s = some m)
      (ha : Mode.outside.step a = some m) (hb : m.step b = some .outside) :
      scan .outside (a :: s ++ [b]) = some .outside := by
    rw [List.cons_append, scan_cons ha, scan_append hs, scan_cons hb]
    rfl
  induction h with
  | null => rfl
  | no => rfl
  | yes => rfl
  | number h => exact h.scan_eq
  | string h => exact delimited h.scan_eq rfl rfl
  | emptyArray hw => exact delimited (scan_of_isBlank hw) rfl rfl
  | array _ ih => exact delimited ih rfl rfl
  | emptyObject hw => exact delimited (scan_of_isBlank hw) rfl rfl
  | object _ ih => exact delimited ih rfl rfl
  | element hv _ hw ih =>
    rw [List.append_assoc, scan_append (scan_of_isBlank hv), scan_append ih, scan_of_isBlank hw]
  | member hv _ hw _ ihk ihs =>
    rw [List.append_assoc, List.append_assoc, scan_append (scan_of_isBlank hv), scan_append ihk,
      scan_append (scan_of_isBlank hw), scan_cons rfl, ihs]
  | last _ ih => exact ih
  | more _ _ ih ihs => rw [scan_append ih, scan_cons rfl, ihs]

end MacroConstants.Json
