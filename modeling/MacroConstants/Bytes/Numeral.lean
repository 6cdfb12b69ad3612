import MacroConstants.Bytes

/-!
# Numerals

* `Numeral.value` — the number a string of digits denotes in a base up to ten.
* `Numeral.decimal`, `Numeral.signed`, `Numeral.hexadecimal` — numbers as text, without
  leading zeros.
-/

namespace MacroConstants.Numeral

-- powers of numbers are their own, also where all monoids have powers
attribute [default_instance high, instance (high)] instPowNat

/-- The number a string of digits denotes in the given base. -/
def value (base : Nat) (digits : Bytes) : Nat :=
  digits.foldl (fun n d => n * base + (d.toNat - (ascii '0').toNat)) 0

/-- A natural number in decimal. -/
def decimal (n : Nat) : Bytes := (Nat.toDigits 10 n).map Char.toUInt8

/-- A natural number in hexadecimal, with lowercase letters. -/
def hexadecimal (n : Nat) : Bytes := (Nat.toDigits 16 n).map Char.toUInt8

/-- An integer in decimal, with a minus sign when it is negative. -/
def signed : Int → Bytes
  | .ofNat n => decimal n
  | .negSucc n => ascii '-' :: decimal (n + 1)

end MacroConstants.Numeral
