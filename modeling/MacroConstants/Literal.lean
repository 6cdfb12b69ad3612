import MacroConstants.Value

/-!
# Literals

Replacement texts whose value is plain without a compiler.  Three shapes are read:

* `Literal.integer?` — an optional minus and digits, octal when they start with a zero, that
  fit in 64 bits;
* `Literal.string?` — a word between double quotes;
* `Literal.real?` — digits, a point and digits, a `float` with a suffix and else a `double`.

`Literal.read?` takes the first shape that fits.
-/

namespace MacroConstants.Literal

/-- Digits as a number: base eight when the first is a zero, else base ten; nothing when a byte
is no digit of the base or there is none. -/
def magnitude? : Bytes → Option Nat
  | [] => none
  | d :: ds =>
    if d = ascii '0' then
      if (d :: ds).all Bytes.isOctal then some (Numeral.value 8 (d :: ds)) else none
    else
      if (d :: ds).all Bytes.isDigit then some (Numeral.value 10 (d :: ds)) else none

/-- The integers that fit in 64 bits. -/
def fits (i : Int) : Bool := -(2 ^ 63) ≤ i && i < 2 ^ 63

/-- Splits off a minus sign. -/
def splitSign : Bytes → Bool × Bytes
  | [] => (false, [])
  | b :: bs => if b = ascii '-' then (true, bs) else (false, b :: bs)

/-- An integer literal. -/
def integer? (raw : Bytes) : Option Value :=
  let (negative, digits) := splitSign raw
  match magnitude? digits with
  | none => none
  | some n =>
    let i : Int := if negative then -(n : Int) else n
    if fits i then some (.int i.toInt64) else none

/-- The word between two double quotes. -/
def quoted? : Bytes → Option Bytes
  | [] => none
  | b :: bs =>
    if b = ascii '"' ∧ bs.getLast? = some (ascii '"') then some bs.dropLast else none

/-- A string literal that needs no escapes: letters, digits and underscores, at least one. -/
def string? (raw : Bytes) : Option Value :=
  match quoted? raw with
  | none => none
  | some body => if !body.isEmpty && body.all Bytes.isWord then some (.string body) else none

/-- Splits off a suffix `f` or `F`. -/
def splitSuffix (raw : Bytes) : Bool × Bytes :=
  match raw.getLast? with
  | none => (false, raw)
  | some b => if b = ascii 'f' ∨ b = ascii 'F' then (true, raw.dropLast) else (false, raw)

/-- Digits, a point, digits. -/
def isPointed (text : Bytes) : Bool :=
  let whole := text.takeWhile Bytes.isDigit
  match text.dropWhile Bytes.isDigit with
  | [] => false
  | point :: fraction =>
    point == ascii '.' && !whole.isEmpty && !fraction.isEmpty && fraction.all Bytes.isDigit

/-- A floating literal, kept as its text before the suffix. -/
def real? (raw : Bytes) : Option Value :=
  let (suffixed, text) := splitSuffix raw
  if isPointed text then some (.decimal (if suffixed then .float else .double) text) else none

/-- The value of a literal; nothing for any other text. -/
def read? (raw : Bytes) : Option Value :=
  integer? raw <|> string? raw <|> real? raw

end MacroConstants.Literal
