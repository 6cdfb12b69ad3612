import MacroConstants.Proofs.Json.Grammar
import MacroConstants.Proofs.Literal
import Mathlib.Algebra.Field.Rat

/-!
# Reading JSON texts

A reader of all of JSON: escapes and pairs of surrogates in strings, numbers with fractions and
exponents as the rationals they denote, and blanks between all tokens.

* `Json.Tree` : what a JSON text says.
* `Json.number?` : numbers, from their digits, and `Json.string?` : strings, from their pieces.
* `Json.items?`, `Json.list?` : what stands between brackets or braces, whatever its items are.
* `Json.value?`, `Json.read?` : **the reader**.
-/

namespace MacroConstants

/-- The rational that digits before and behind a point denote. -/
def Numeral.pointed (whole fraction : Bytes) : ℚ :=
  denoted 10 (whole ++ fraction) / 10 ^ fraction.length

namespace Json

/-- What a JSON text says. -/
inductive Tree where
  | null
  | boolean (b : Bool)
  | number (q : ℚ)
  | string (text : Bytes)
  | array (items : List Tree)
  /-- The members in order, also those of one key. -/
  | object (members : List (Bytes × Tree))

/-! ### Numbers -/

/-- Digits, at least one, and what follows them. -/
def digits? (s : Bytes) : Option (Bytes × Bytes) :=
  if (s.takeWhile Bytes.isDigit).isEmpty then none
  else some (s.takeWhile Bytes.isDigit, s.dropWhile Bytes.isDigit)

/-- The digits before the point: a zero stands alone. -/
def whole? (s : Bytes) : Option (Bytes × Bytes) :=
  (digits? s).filter fun x => x.1 == [ascii '0'] || x.1.head? != some (ascii '0')

/-- The digits behind the point, if there is one. -/
def fraction? : Bytes → Option (Bytes × Bytes)
  | [] => some ([], [])
  | b :: s => if b = ascii '.' then digits? s else some ([], b :: s)

/-- A number with a sign, which may be a plus. -/
def power? : Bytes → Option (ℤ × Bytes)
  | [] => none
  | b :: s =>
    if b = ascii '-' then (digits? s).map fun x => (-(Numeral.denoted 10 x.1 : ℤ), x.2)
    else (digits? (if b = ascii '+' then s else b :: s)).map fun x =>
      ((Numeral.denoted 10 x.1 : ℤ), x.2)

/-- The power of ten, if there is one; zero else. -/
def exponent? : Bytes → Option (ℤ × Bytes)
  | [] => some (0, [])
  | b :: s => if b = ascii 'e' ∨ b = ascii 'E' then power? s else some (0, b :: s)

/-- A number without a sign. -/
def magnitude? (s : Bytes) : Option (ℚ × Bytes) := do
  let (whole, s) ← whole? s
  let (fraction, s) ← fraction? s
  let (power, s) ← exponent? s
  return (Numeral.pointed whole fraction * 10 ^ power, s)

/-- A number, and what follows it. -/
def number? : Bytes → Option (ℚ × Bytes)
  | [] => none
  | b :: s =>
    if b = ascii '-' then (magnitude? s).map fun x => (-x.1, x.2) else magnitude? (b :: s)

/-! ### Strings -/

/-- A byte of a string, or a number of 16 bits that stands for a character or for a half of one. -/
inductive Piece where
  | byte (b : UInt8)
  | code (n : ℕ)

/-- The character of a number; what is no character is replaced. -/
def encode (n : ℕ) : Bytes :=
  String.utf8EncodeChar (if n.isValidChar then Char.ofNat n else '\uFFFD')

/-- The text of pieces: two surrogates that fit together are one character. -/
def Piece.join : List Piece → Bytes
  | [] => []
  | byte b :: ps => b :: join ps
  | code high :: code low :: ps =>
    if (0xd800 ≤ high ∧ high < 0xdc00) ∧ (0xdc00 ≤ low ∧ low < 0xe000) then
      encode (0x10000 + (high - 0xd800) * 0x400 + (low - 0xdc00)) ++ join ps
    else encode high ++ join (code low :: ps)
  | code n :: ps => encode n ++ join ps

/-- What a letter behind a backslash stands for. -/
def unescape? (b : UInt8) : Option UInt8 :=
  [(ascii '"', ascii '"'), (ascii '\\', ascii '\\'), (ascii '/', ascii '/'), (ascii 'b', 8),
    (ascii 'f', 12), (ascii 'n', ascii '\n'), (ascii 'r', ascii '\r'),
    (ascii 't', ascii '\t')].lookup b

/-- The value of a hexadecimal digit. -/
def hexDigit (b : UInt8) : ℕ :=
  if Bytes.isDigit b then b.toNat - (ascii '0').toNat
  else if ascii 'a' ≤ b then b.toNat - (ascii 'a').toNat + 10
  else b.toNat - (ascii 'A').toNat + 10

/-- The number of hexadecimal digits. -/
def hexadecimal (ds : Bytes) : ℕ := ds.foldl (fun n d => n * 16 + hexDigit d) 0

/-- What a byte of a string may stand behind: a backslash, or a backslash, a `u` and digits. -/
inductive Behind where
  | nothing
  | backslash
  | digits (ds : Bytes)

/-- The pieces up to the closing quotation mark, and what follows it. -/
def pieces? : Behind → Bytes → Option (List Piece × Bytes)
  | _, [] => none
  | .nothing, b :: s =>
    if b = ascii '"' then some ([], s)
    else if b = ascii '\\' then pieces? .backslash s
    else if b < 0x20 then none
    else (pieces? .nothing s).map fun x => (.byte b :: x.1, x.2)
  | .backslash, b :: s =>
    if b = ascii 'u' then pieces? (.digits []) s
    else
      match unescape? b with
      | none => none
      | some c => (pieces? .nothing s).map fun x => (.byte c :: x.1, x.2)
  | .digits ds, b :: s =>
    if isHex b then
      if ds.length = 3 then
        (pieces? .nothing s).map fun x => (.code (hexadecimal (ds ++ [b])) :: x.1, x.2)
      else pieces? (.digits (ds ++ [b])) s
    else none

/-- A string behind its opening quotation mark, and what follows it. -/
def string? (s : Bytes) : Option (Bytes × Bytes) :=
  (pieces? .nothing s).map fun x => (Piece.join x.1, x.2)

/-! ### Values -/

/-- Without the blanks at the front. -/
def skip (s : Bytes) : Bytes := s.dropWhile Bytes.isLayout

section Lists

variable {α : Type} (close : UInt8) (item : Bytes → Option (α × Bytes))

/-- Items with commas between them up to a closing byte, and what follows it; `n` bounds their
number. -/
def items? : ℕ → Bytes → Option (List α × Bytes)
  | 0, _ => none
  | n + 1, s =>
    match item s with
    | none => none
    | some (a, s) =>
      match skip s with
      | [] => none
      | b :: s =>
        if b = close then some ([a], s)
        else if b = ascii ',' then (items? n s).map fun x => (a :: x.1, x.2)
        else none

/-- Items, or nothing at all, up to a closing byte. -/
def list? (s : Bytes) : Option (List α × Bytes) :=
  match skip s with
  | [] => none
  | b :: rest => if b = close then some ([], rest) else items? close item s.length s

end Lists

/-- A key, a colon and a value. -/
def member? (value : Bytes → Option (Tree × Bytes)) (s : Bytes) :
    Option ((Bytes × Tree) × Bytes) :=
  match skip s with
  | [] => none
  | b :: s =>
    if b = ascii '"' then
      match string? s with
      | none => none
      | some (key, s) =>
        match skip s with
        | [] => none
        | b :: s => if b = ascii ':' then (value s).map fun x => ((key, x.1), x.2) else none
    else none

/-- One of the three words. -/
def word? (s : Bytes) : Option (Tree × Bytes) :=
  if (bytes "null").isPrefixOf s then some (.null, s.drop 4)
  else if (bytes "true").isPrefixOf s then some (.boolean true, s.drop 4)
  else if (bytes "false").isPrefixOf s then some (.boolean false, s.drop 5)
  else none

/-- A value behind blanks, and what follows it; the number bounds the depth to which arrays and
objects are nested. -/
def value? : ℕ → Bytes → Option (Tree × Bytes)
  | 0, _ => none
  | depth + 1, s =>
    match skip s with
    | [] => none
    | b :: s =>
      if b = ascii '"' then (string? s).map fun x => (.string x.1, x.2)
      else if b = ascii '[' then
        (list? (ascii ']') (value? depth) s).map fun x => (.array x.1, x.2)
      else if b = ascii '\x7b' then
        (list? (ascii '\x7d') (member? (value? depth)) s).map fun x => (.object x.1, x.2)
      else if b = ascii '-' ∨ Bytes.isDigit b = true then
        (number? (b :: s)).map fun x => (.number x.1, x.2)
      else word? (b :: s)

/-- **What a whole text says**: one value with blanks around it.  Its length bounds the depth of
the value. -/
def read? (s : Bytes) : Option Tree :=
  match value? s.length s with
  | none => none
  | some (t, rest) => if (skip rest).isEmpty then some t else none

example : read? (bytes " [true, \x7b\"\\ud83d\\ude00\": \"\\u00e9\\/\"\x7d]") =
    some (.array [.boolean true, .object [(bytes "😀", .string (bytes "é/"))]]) := by
  rfl

end Json

end MacroConstants
