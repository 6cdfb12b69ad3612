import MacroConstants.Proofs.Json.Document
import MacroConstants.Proofs.Json.Number
import MacroConstants.Proofs.Json.Reader

/-!
# Reading what was written

A reader gets back what was written: the integer or the rational of a number, the bytes of a string,
and the objects of an array with their members.

* `Json.number?_signed`, `Json.number?_decimalToken` : **numbers are read exactly**.
* `Json.string?_escape` : so are strings, UTF-8 or not.
* `Json.Leaf.Reads` : what a value without parts is read as, wherever it stands.
* `Json.list?_separated` : lines are read as a list if each of them is read as an item.
* `Json.read?_document` : **an array of flat objects is read as it was written.**
-/

namespace MacroConstants

/-! ### Decimal numerals -/

namespace Numeral

theorem digit_digitChar {n : ℕ} (h : n < 10) : digit (ascii (Nat.digitChar n)) = n := by
  revert h n
  decide

/-- A number in decimal denotes the number. -/
theorem denoted_decimal (n : ℕ) : denoted 10 (decimal n) = n := by
  induction n using Nat.strongRecOn with
  | ind n ih =>
    rcases Nat.lt_or_ge n 10 with hn | hn
    · have hdigit : decimal n = [ascii (Nat.digitChar n)] := by
        rw [decimal, Nat.toDigits_of_lt_base hn]
        rfl
      rw [hdigit, denoted, List.reverse_singleton, List.map_singleton, digit_digitChar hn,
        Nat.ofDigits_singleton]
    · have hdigits : decimal n = decimal (n / 10) ++ [ascii (Nat.digitChar (n % 10))] := by
        rw [decimal, Nat.toDigits_of_base_le (by decide) hn, List.map_append]
        rfl
      rw [hdigits, denoted_concat, ih (n / 10) (by omega), digit_digitChar (by omega)]
      omega

/-- Leading zeros do not count. -/
theorem denoted_zeros (k : ℕ) (s : Bytes) :
    denoted 10 (List.replicate k (ascii '0') ++ s) = denoted 10 s := by
  induction k with
  | zero => rfl
  | succ k ih =>
    rw [← ih, ← value_eq_denoted, ← value_eq_denoted]
    rfl

theorem pointed_zeros (k : ℕ) (w f : Bytes) :
    pointed (List.replicate k (ascii '0') ++ w) f = pointed w f := by
  rw [pointed, pointed, List.append_assoc, denoted_zeros]

end Numeral

namespace Json

variable {s w rest : Bytes} {b : UInt8}

/-! ### Numbers that were written -/

/-- Nothing, or a byte that is no part of a number. -/
def Stops (rest : Bytes) : Prop := ∀ b ∈ rest.head?, isNumeric b = false

theorem Stops.not_isDigit (h : Stops rest) : ∀ b ∈ rest.head?, Bytes.isDigit b = false := by
  intro b hb
  cases hd : Bytes.isDigit b with
  | false => rfl
  | true => rw [← h b hb, isNumeric_of_isDigit hd]

theorem digits?_append (hs : Digits s) (hr : ∀ b ∈ rest.head?, Bytes.isDigit b = false) :
    digits? (s ++ rest) = some (s, rest) := by
  have hall : ∀ b ∈ s, Bytes.isDigit b = true := List.all_eq_true.1 hs.2
  unfold digits?
  rw [Bytes.takeWhile_append hall hr, Bytes.dropWhile_append hall hr]
  exact if_neg (by simpa using hs.1)

theorem whole?_append (hs : Whole s) (hr : ∀ b ∈ rest.head?, Bytes.isDigit b = false) :
    whole? (s ++ rest) = some (s, rest) := by
  have hdigits : Digits s := by
    rcases hs with rfl | ⟨hs, -⟩
    · exact ⟨by decide, by decide⟩
    · exact hs
  unfold whole?
  rw [digits?_append hdigits hr, Option.filter_some]
  refine if_pos ?_
  rcases hs with rfl | ⟨-, h0⟩
  · rfl
  · simpa using .inr h0

theorem fraction?_of_stops (h : Stops rest) : fraction? rest = some ([], rest) := by
  cases rest with
  | nil => rfl
  | cons b rest =>
    refine if_neg ?_
    rintro rfl
    exact absurd (h _ rfl) (by decide)

theorem exponent?_of_stops (h : Stops rest) : exponent? rest = some (0, rest) := by
  cases rest with
  | nil => rfl
  | cons b rest =>
    refine if_neg ?_
    rintro (rfl | rfl) <;> exact absurd (h _ rfl) (by decide)

/-- A whole number is read, … -/
theorem magnitude?_whole (hs : Whole s) (hr : Stops rest) :
    magnitude? (s ++ rest) = some ((Numeral.denoted 10 s : ℚ), rest) := by
  simp [magnitude?, whole?_append hs hr.not_isDigit, fraction?_of_stops hr, exponent?_of_stops hr,
    Numeral.pointed]

/-- … and so is a number with a fraction. -/
theorem magnitude?_pointed {f : Bytes} (hs : Whole s) (hf : Digits f) (hr : Stops rest) :
    magnitude? (s ++ ascii '.' :: f ++ rest) = some (Numeral.pointed s f, rest) := by
  have hpoint : ∀ b ∈ (ascii '.' :: (f ++ rest)).head?, Bytes.isDigit b = false := by
    rintro _ ⟨⟩
    rfl
  have hfraction : fraction? (ascii '.' :: (f ++ rest)) = some (f, rest) := by
    rw [fraction?, if_pos rfl, digits?_append hf hr.not_isDigit]
  rw [List.append_assoc, List.cons_append]
  simp [magnitude?, whole?_append hs hpoint, hfraction, exponent?_of_stops hr]

theorem number?_of_magnitude? {x : ℚ × Bytes} (h : magnitude? s = some x)
    (hs : s.head? ≠ some (ascii '-')) : number? s = some x := by
  cases s with
  | nil => cases h
  | cons b s =>
    have hb : b ≠ ascii '-' := fun hb => hs (congrArg some hb)
    rw [number?, if_neg hb, h]

theorem Whole.head?_append (h : Whole s) : (s ++ rest).head? ≠ some (ascii '-') := by
  obtain ⟨b, t, rfl, hb⟩ := h.exists_cons
  rintro ⟨⟩
  exact absurd hb (by decide)

theorem number?_signed (i : ℤ) (hr : Stops rest) :
    number? (Numeral.signed i ++ rest) = some ((i : ℚ), rest) := by
  cases i with
  | ofNat n =>
    have hn := magnitude?_whole (whole_decimal n) hr
    rw [Numeral.denoted_decimal] at hn
    exact number?_of_magnitude? hn (whole_decimal n).head?_append
  | negSucc n =>
    have hn := magnitude?_whole (whole_decimal (n + 1)) hr
    rw [Numeral.denoted_decimal] at hn
    rw [Numeral.signed, List.cons_append, number?, if_pos rfl, hn, Option.map_some,
      Int.cast_negSucc]

/-- The zeros that are left out do not change the number. -/
theorem number?_decimalToken {f : Bytes} (hw : Digits w) (hf : Digits f) (hr : Stops rest) :
    number? (decimalToken (w ++ ascii '.' :: f) ++ rest) = some (Numeral.pointed w f, rest) := by
  obtain ⟨k, v, rfl, hv, htoken⟩ := exists_decimalToken f hw
  rw [htoken, Numeral.pointed_zeros]
  refine number?_of_magnitude? (magnitude?_pointed hv hf hr) ?_
  rw [List.append_assoc]
  exact hv.head?_append

/-! ### Strings that were written -/

/-- The piece that a byte is read as. -/
def Piece.of (b : UInt8) : Piece :=
  if b < 0x20 ∧ b ≠ ascii '\t' ∧ b ≠ ascii '\n' ∧ b ≠ ascii '\r' then .code b.toNat else .byte b

theorem encode_control (h : b < 0x20) : encode b.toNat = [b] :=
  Bytes.forall_byte (P := fun b => b < 0x20 → encode b.toNat = [b]) (by decide +kernel) b h

/-- The pieces of a text are put together to the text. -/
theorem join_map_of (text : Bytes) : Piece.join (text.map Piece.of) = text := by
  induction text with
  | nil => rfl
  | cons b text ih =>
    rw [List.map_cons, Piece.of]
    split
    · rename_i hb
      -- a control byte is no surrogate
      have hcode : ∀ ps, Piece.join (.code b.toNat :: ps) = encode b.toNat ++ Piece.join ps := by
        have hlt : b.toNat < 0x20 := UInt8.lt_iff_toNat_lt.1 hb.1
        intro ps
        rcases ps with _ | ⟨c | n, ps⟩
        · rfl
        · rfl
        · exact if_neg (by omega)
      rw [hcode, encode_control hb.1, ih]
      rfl
    · rw [Piece.join, ih]

theorem hexadecimal_controlDigits (h : b < 0x20) : hexadecimal (controlDigits b) = b.toNat :=
  Bytes.forall_byte (P := fun b => b < 0x20 → hexadecimal (controlDigits b) = b.toNat)
    (by decide +kernel) b h

/-- Four digits behind a backslash and a `u` are read as a number. -/
theorem pieces?_digits {ds : Bytes} (hlength : ds.length = 4) (hhex : ds.all isHex = true)
    (s : Bytes) :
    pieces? .nothing (ascii '\\' :: ascii 'u' :: (ds ++ s)) =
      (pieces? .nothing s).map fun x => (.code (hexadecimal ds) :: x.1, x.2) := by
  obtain ⟨h₁, h₂, h₃, h₄, rfl⟩ := List.length_eq_four.1 hlength
  simp only [List.all_cons, List.all_nil, Bool.and_true, Bool.and_eq_true] at hhex
  obtain ⟨hh₁, hh₂, hh₃, hh₄⟩ := hhex
  have hletter : ∀ s, pieces? .nothing (ascii '\\' :: ascii 'u' :: s) = pieces? (.digits []) s :=
    fun s => rfl
  rw [hletter]
  simp [pieces?, hh₁, hh₂, hh₃, hh₄]

/-- An escaped byte is read as its piece. -/
theorem pieces?_escape (b : UInt8) (s : Bytes) :
    pieces? .nothing (escape b ++ s) =
      (pieces? .nothing s).map fun x => (Piece.of b :: x.1, x.2) := by
  unfold escape
  split
  · rename_i hb
    rcases hb with rfl | rfl <;> rfl
  rename_i hquote
  split
  · rename_i hb
    subst hb
    rfl
  rename_i htab
  split
  · rename_i hb
    subst hb
    rfl
  rename_i hnewline
  split
  · rename_i hb
    subst hb
    rfl
  rename_i hreturn
  split
  · rename_i hb
    obtain ⟨hlength, hhex⟩ := controlDigits_spec hb
    have hpiece : Piece.of b = .code b.toNat := if_pos ⟨hb, htab, hnewline, hreturn⟩
    have hread := pieces?_digits hlength hhex s
    rw [hexadecimal_controlDigits hb] at hread
    rw [hpiece]
    exact hread
  · rename_i hb
    have hpiece : Piece.of b = .byte b := if_neg fun h => hb h.1
    rw [not_or] at hquote
    rw [hpiece, List.singleton_append, pieces?, if_neg hquote.1, if_neg hquote.2, if_neg hb]

/-- A string is read as it was written, UTF-8 or not. -/
theorem string?_escape (text rest : Bytes) :
    string? (text.flatMap escape ++ ascii '"' :: rest) = some (text, rest) := by
  have hpieces : pieces? .nothing (text.flatMap escape ++ ascii '"' :: rest) =
      some (text.map Piece.of, rest) := by
    induction text with
    | nil => rfl
    | cons b text ih =>
      rw [List.flatMap_cons, List.append_assoc, pieces?_escape, ih]
      rfl
  rw [string?, hpieces, Option.map_some, join_map_of]

/-! ### Values that were written -/

theorem skip_append (hw : isBlank w = true) (hs : ∀ b ∈ s.head?, Bytes.isLayout b = false) :
    skip (w ++ s) = s :=
  Bytes.dropWhile_append (List.all_eq_true.1 hw) hs

/-- The value is read as `t` wherever no part of a number follows it. -/
def Leaf.Reads (l : Leaf) (t : Tree) : Prop :=
  ∀ depth w rest, isBlank w = true → Stops rest →
    value? (depth + 1) (w ++ l.render ++ rest) = some (t, rest)

theorem reads_null : Leaf.null.Reads .null := by
  intro depth w rest hw hr
  have hskip : skip (w ++ (bytes "null" ++ rest)) = bytes "null" ++ rest :=
    skip_append hw (by rintro _ ⟨⟩; rfl)
  rw [List.append_assoc, value?, Leaf.render, hskip]
  rfl

theorem reads_string (text : Bytes) : (Leaf.string text).Reads (.string text) := by
  intro depth w rest hw hr
  have hquote : quote text ++ rest = ascii '"' :: (text.flatMap escape ++ ascii '"' :: rest) := by
    simp [quote]
  have hskip : skip (w ++ (quote text ++ rest)) = quote text ++ rest :=
    skip_append hw (by rw [hquote]; rintro _ ⟨⟩; rfl)
  rw [List.append_assoc, value?, Leaf.render, hskip, hquote]
  dsimp only
  rw [if_pos rfl, string?_escape]
  rfl

theorem reads_number {text : Bytes} {q : ℚ} (htext : Number text)
    (h : ∀ rest, Stops rest → number? (text ++ rest) = some (q, rest)) :
    (Leaf.number text).Reads (.number q) := by
  intro depth w rest hw hr
  obtain ⟨b, s, rfl, hb⟩ := htext.exists_cons
  have hne : b ≠ ascii '"' ∧ b ≠ ascii '[' ∧ b ≠ ascii '\x7b' ∧ Bytes.isLayout b = false := by
    revert hb
    exact Bytes.forall_byte (P := fun b => b = ascii '-' ∨ Bytes.isDigit b = true →
      b ≠ ascii '"' ∧ b ≠ ascii '[' ∧ b ≠ ascii '\x7b' ∧ Bytes.isLayout b = false)
      (by decide +kernel) b
  have hskip : skip (w ++ (b :: s ++ rest)) = b :: s ++ rest :=
    skip_append hw (by rintro _ ⟨⟩; exact hne.2.2.2)
  rw [List.append_assoc, value?, Leaf.render, hskip, List.cons_append]
  dsimp only
  rw [if_neg hne.1, if_neg hne.2.1, if_neg hne.2.2.1, if_pos hb, ← List.cons_append, h rest hr]
  rfl

/-! ### Documents that were written -/

theorem length_le_separated (ls : List Bytes) : ls.length ≤ (separated ls).length + 1 := by
  induction ls with
  | nil => simp
  | cons l ls ih =>
    rcases ls with _ | ⟨l', ls⟩
    · simp
    · rw [separated_cons_cons]
      simp only [List.length_cons, List.length_append] at ih ⊢
      omega

section Lines

variable {α β : Type} {close : UInt8} {item : Bytes → Option (β × Bytes)} {f : α → β}
  {g : α → Bytes} {xs : List α}

/-- Lines are read as items if each of them is, wherever a comma or a newline follows it. -/
theorem items?_separated
    (h : ∀ x ∈ xs, ∀ b rest, b = ascii ',' ∨ b = ascii '\n' →
      item (ascii '\n' :: (g x ++ b :: rest)) = some (f x, b :: rest))
    (hne : xs ≠ []) (hw : isBlank w = true) (hclose : Bytes.isLayout close = false)
    (hcomma : close ≠ ascii ',') {n : ℕ} (hn : xs.length ≤ n) (rest : Bytes) :
    items? close item n
        (ascii '\n' :: (separated (xs.map g) ++ ascii '\n' :: (w ++ close :: rest))) =
      some (xs.map f, rest) := by
  induction xs generalizing n with
  | nil => exact absurd rfl hne
  | cons x xs ih =>
    obtain ⟨n, rfl⟩ : ∃ m, n = m + 1 := Nat.exists_eq_add_one.2 (by simp at hn; omega)
    rcases xs with _ | ⟨y, ys⟩
    · have hskip : skip (ascii '\n' :: (w ++ close :: rest)) = close :: rest := by
        have hnewline : isBlank (ascii '\n' :: w) = true := hw
        exact skip_append hnewline (by rintro _ ⟨⟩; exact hclose)
      have hx := h x List.mem_cons_self (ascii '\n') (w ++ close :: rest) (.inr rfl)
      rw [List.map_singleton, separated_singleton, items?, hx]
      dsimp only
      rw [hskip]
      exact if_pos rfl
    · have hskip : ∀ s, skip (ascii ',' :: s) = ascii ',' :: s := fun s => rfl
      have hx := h x List.mem_cons_self (ascii ',') (ascii '\n' ::
        (separated ((y :: ys).map g) ++ ascii '\n' :: (w ++ close :: rest))) (.inl rfl)
      have hys := ih (fun z hz => h z (List.mem_cons_of_mem _ hz)) (List.cons_ne_nil y ys)
        (n := n) (by simp at hn ⊢; omega)
      have hlines : separated ((x :: y :: ys).map g) =
          g x ++ ascii ',' :: ascii '\n' :: separated ((y :: ys).map g) := separated_cons_cons ..
      rw [hlines, List.append_assoc, List.cons_append, List.cons_append, items?, hx]
      dsimp only
      rw [hskip]
      dsimp only
      rw [if_neg hcomma.symm, if_pos rfl, hys]
      rfl

/-- Behind blanks there is a byte that does not close a list. -/
def Opens (close : UInt8) (s : Bytes) : Prop :=
  ∃ v b t, s = v ++ b :: t ∧ isBlank v = true ∧ Bytes.isLayout b = false ∧ b ≠ close

theorem Opens.append (h : Opens close s) (t : Bytes) : Opens close (s ++ t) := by
  obtain ⟨v, b, s, rfl, hv, hb, hne⟩ := h
  exact ⟨v, b, s ++ t, by simp, hv, hb, hne⟩

theorem Opens.list? (h : Opens close s) : list? close item s = items? close item s.length s := by
  obtain ⟨v, b, t, rfl, hv, hb, hne⟩ := h
  have hskip : skip (v ++ b :: t) = b :: t := skip_append hv (by rintro _ ⟨⟩; exact hb)
  rw [Json.list?, hskip]
  exact if_neg hne

variable (close item f g xs) in
/-- Lines between an opening and a closing byte are read as a list. -/
theorem list?_separated
    (h : ∀ x ∈ xs, ∀ b rest, b = ascii ',' ∨ b = ascii '\n' →
      item (ascii '\n' :: (g x ++ b :: rest)) = some (f x, b :: rest))
    (hopens : ∀ x ∈ xs, Opens close (ascii '\n' :: g x)) (hw : isBlank w = true)
    (hclose : Bytes.isLayout close = false) (hcomma : close ≠ ascii ',') (rest : Bytes) :
    list? close item
        (ascii '\n' :: (separated (xs.map g) ++ ascii '\n' :: (w ++ close :: rest))) =
      some (xs.map f, rest) := by
  rcases xs with _ | ⟨x, xs⟩
  · have hblank : isBlank (ascii '\n' :: ascii '\n' :: w) = true := hw
    have hskip : skip (ascii '\n' :: ascii '\n' :: (w ++ close :: rest)) = close :: rest :=
      skip_append hblank (by rintro _ ⟨⟩; exact hclose)
    rw [List.map_nil, separated_nil, List.nil_append, list?, hskip]
    exact if_pos rfl
  · have hfirst : ∃ tail, separated ((x :: xs).map g) = g x ++ tail := by
      rcases xs with _ | ⟨y, ys⟩
      · exact ⟨[], by simp⟩
      · exact ⟨_, separated_cons_cons (g x) (g y) (ys.map g)⟩
    obtain ⟨tail, htail⟩ := hfirst
    have hstart : Opens close
        (ascii '\n' :: (separated ((x :: xs).map g) ++ ascii '\n' :: (w ++ close :: rest))) := by
      have hx := (hopens x List.mem_cons_self).append (tail ++ ascii '\n' :: (w ++ close :: rest))
      rwa [htail, List.append_assoc]
    rw [hstart.list?]
    refine items?_separated h (List.cons_ne_nil x xs) hw hclose hcomma ?_ rest
    have hle := length_le_separated ((x :: xs).map g)
    simp only [List.length_map, List.length_cons, List.length_append] at hle ⊢
    omega

end Lines

/-- A member is read as a key and a value. -/
theorem member?_member {m : Bytes × Leaf} {t : Tree} (h : m.2.Reads t) (depth : ℕ)
    (hr : Stops rest) :
    member? (value? (depth + 1)) (ascii '\n' :: (member m ++ rest)) = some ((m.1, t), rest) := by
  have hline : ascii '\n' :: (member m ++ rest) = (ascii '\n' :: bytes "    ") ++
      ascii '"' :: (m.1.flatMap escape ++ ascii '"' :: (bytes ": " ++ m.2.render ++ rest)) := by
    simp [member, quote]
  have hskip : skip ((ascii '\n' :: bytes "    ") ++ ascii '"' ::
      (m.1.flatMap escape ++ ascii '"' :: (bytes ": " ++ m.2.render ++ rest))) = ascii '"' ::
      (m.1.flatMap escape ++ ascii '"' :: (bytes ": " ++ m.2.render ++ rest)) :=
    skip_append rfl (by rintro _ ⟨⟩; rfl)
  have hcolon : skip (bytes ": " ++ m.2.render ++ rest) =
      ascii ':' :: (bytes " " ++ m.2.render ++ rest) := rfl
  unfold member?
  rw [hline, hskip]
  dsimp only
  rw [if_pos rfl, string?_escape]
  dsimp only
  rw [hcolon]
  dsimp only
  rw [if_pos rfl, h depth (bytes " ") rest rfl hr]
  rfl

/-- What stands between lines and behind them is no part of a number. -/
theorem stops_of_separates (h : b = ascii ',' ∨ b = ascii '\n') (rest : Bytes) :
    Stops (b :: rest) := by
  rintro _ ⟨⟩
  rcases h with rfl | rfl <;> rfl

/-- A flat object is read member by member. -/
theorem value?_object {ms : List ((Bytes × Leaf) × Tree)} (h : ∀ m ∈ ms, m.1.2.Reads m.2)
    (depth : ℕ) (rest : Bytes) :
    value? (depth + 2) (ascii '\n' :: (object (ms.map Prod.fst) ++ rest)) =
      some (.object (ms.map fun m => (m.1.1, m.2)), rest) := by
  have hlines : ascii '\n' :: (object (ms.map Prod.fst) ++ rest) =
      bytes "\n  " ++ ascii '\x7b' :: ascii '\n' ::
        (separated (ms.map fun m => member m.1) ++ ascii '\n' ::
          (bytes "  " ++ ascii '\x7d' :: rest)) := by
    have h₁ : bytes "  \x7b\n" = bytes "  " ++ [ascii '\x7b', ascii '\n'] := rfl
    have h₂ : bytes "\n  \x7d" = ascii '\n' :: (bytes "  " ++ [ascii '\x7d']) := rfl
    have h₃ : bytes "\n  " = ascii '\n' :: bytes "  " := rfl
    simp [object, h₁, h₂, h₃, Function.comp_def]
  have hskip : ∀ s, skip (bytes "\n  " ++ ascii '\x7b' :: s) = ascii '\x7b' :: s :=
    fun s => skip_append rfl (by rintro _ ⟨⟩; rfl)
  have hlist := list?_separated (ascii '\x7d') (member? (value? (depth + 1)))
    (fun m : (Bytes × Leaf) × Tree => (m.1.1, m.2)) (fun m => member m.1) ms
    (w := bytes "  ")
    (fun m hm b rest hb => member?_member (h m hm) depth (stops_of_separates hb _))
    (fun m _ => ⟨bytes "\n    ", ascii '"', _, by simp [member, quote]; rfl, rfl, rfl, by decide⟩)
    rfl rfl (by decide) rest
  rw [value?, hlines, hskip]
  dsimp only
  rw [if_neg (by decide), if_neg (by decide), if_pos rfl, hlist]
  rfl

/-- **An array of flat objects is read as it was written.** -/
theorem read?_document {oss : List (List ((Bytes × Leaf) × Tree))}
    (h : ∀ ms ∈ oss, ∀ m ∈ ms, m.1.2.Reads m.2) :
    read? (document (oss.map fun ms => ms.map Prod.fst)) =
      some (.array (oss.map fun ms => .object (ms.map fun m => (m.1.1, m.2)))) := by
  rcases oss with _ | ⟨ms, oss⟩
  · rfl
  have hlines : document ((ms :: oss).map fun ms => ms.map Prod.fst) = ascii '[' :: ascii '\n' ::
      (separated ((ms :: oss).map fun ms => object (ms.map Prod.fst)) ++
        ascii '\n' :: ([] ++ ascii ']' :: bytes "\n")) := by
    rw [document_of_ne_nil (by simp), List.map_map, List.append_assoc]
    rfl
  have hlist (depth : ℕ) := list?_separated (ascii ']') (value? (depth + 2))
    (fun ms : List ((Bytes × Leaf) × Tree) => Tree.object (ms.map fun m => (m.1.1, m.2)))
    (fun ms => object (ms.map Prod.fst)) (ms :: oss) (w := [])
    (fun ms hms b rest _ => value?_object (h ms hms) depth (b :: rest))
    (fun ms _ => ⟨bytes "\n  ", ascii '\x7b', _, by simp [object]; rfl, rfl, rfl, by decide⟩)
    rfl rfl (by decide) (bytes "\n")
  have hskip : ∀ s, skip (ascii '[' :: s) = ascii '[' :: s := fun s => rfl
  -- the text is longer than the array is deep
  obtain ⟨depth, hdepth⟩ : ∃ depth, (document ((ms :: oss).map fun ms => ms.map Prod.fst)).length =
      depth + 3 := by
    refine Nat.exists_eq_add_of_le' ?_
    rw [hlines]
    simp only [List.length_cons, List.length_append]
    omega
  have hvalue : value? (depth + 3) (document ((ms :: oss).map fun ms => ms.map Prod.fst)) =
      some (.array ((ms :: oss).map fun ms => .object (ms.map fun m => (m.1.1, m.2))),
        bytes "\n") := by
    rw [hlines, value?, hskip]
    dsimp only
    rw [if_neg (by decide), if_pos rfl, hlist]
    rfl
  rw [read?, hdepth, hvalue]
  rfl

end Json

end MacroConstants
