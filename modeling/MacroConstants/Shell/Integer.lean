import MacroConstants.Bytes.Numeral

/-!
# Integers in shell texts

* `Shell.readInteger` — the integer at the front of a text, in base ten or in the base its digits
  name.
* `Shell.integer?` — the integer that a whole text denotes.
-/

namespace MacroConstants.Shell

/-- The value of a digit in a base above ten. -/
def digitValue (b : UInt8) : Nat :=
  if Bytes.isDigit b then b.toNat - (ascii '0').toNat
  else if ascii 'a' ≤ b then b.toNat - (ascii 'a').toNat + 10
  else b.toNat - (ascii 'A').toNat + 10

/-- A hexadecimal digit. -/
def isHexDigit (b : UInt8) : Bool :=
  Bytes.isDigit b || (ascii 'a' ≤ b && b ≤ ascii 'f') || (ascii 'A' ≤ b && b ≤ ascii 'F')

/-- The number hexadecimal digits denote. -/
def hexadecimalValue (digits : Bytes) : Nat := digits.foldl (fun n d => n * 16 + digitValue d) 0

/-- The number at the front of a text and what follows it.  With `anyBase` a zero in front means
octal, and a zero and `x` hexadecimal. -/
def readNatural (anyBase : Bool) (s : Bytes) : Option (Nat × Bytes) :=
  match anyBase, s with
  | true, 0x30 :: x :: h :: rest =>
    if (x = ascii 'x' ∨ x = ascii 'X') ∧ isHexDigit h then
      some (hexadecimalValue ((h :: rest).takeWhile isHexDigit), (h :: rest).dropWhile isHexDigit)
    else some (Numeral.value 8 (s.takeWhile Bytes.isOctal), s.dropWhile Bytes.isOctal)
  | true, 0x30 :: _ => some (Numeral.value 8 (s.takeWhile Bytes.isOctal), s.dropWhile Bytes.isOctal)
  | _, _ =>
    let digits := s.takeWhile Bytes.isDigit
    if digits.isEmpty then none else some (Numeral.value 10 digits, s.dropWhile Bytes.isDigit)

/-- The integer at the front of a text, after white space and a sign, and what follows it. -/
def readInteger (anyBase : Bool) (s : Bytes) : Option (Int × Bytes) :=
  match s.dropWhile Bytes.isSpace with
  | [] => none
  | b :: rest =>
    if b = ascii '-' then (readNatural anyBase rest).map fun (n, tail) => (-n, tail)
    else if b = ascii '+' then (readNatural anyBase rest).map fun (n, tail) => (n, tail)
    else (readNatural anyBase (b :: rest)).map fun (n, tail) => (n, tail)

/-- The integer that a text denotes; white space may stand around it. -/
def integer? (anyBase : Bool) (s : Bytes) : Option Int :=
  match readInteger anyBase s with
  | some (n, rest) => if rest.all Bytes.isSpace then some n else none
  | none => none

/-- Whether an integer fits 64 bits. -/
def fits (n : Int) : Bool := -(2 ^ 63) ≤ n && n < 2 ^ 63

/-- The 64-bit integer a text denotes. -/
def word? (anyBase : Bool) (s : Bytes) : Option Int := (integer? anyBase s).filter fits

/-- The natural number below `2 ^ 31` that a text denotes in base ten. -/
def count? (s : Bytes) : Option Nat :=
  match integer? false s with
  | some n => if 0 ≤ n ∧ n < 2 ^ 31 then some n.toNat else none
  | none => none

end MacroConstants.Shell
