import MacroConstants.Binary
import MacroConstants.Bytes.Numeral

/-!
# Decimal text with a bounded number of significant digits

A binary number is rounded, exactly and with ties to even, to a given number of significant
decimal digits.  The digits are then written positionally or with an exponent, and trailing
zeros of the fraction are dropped.

* `Decimal.roundDiv` — a quotient rounded to the nearest integer, ties to even.
* `Decimal.leading` — the position of the first significant digit of a positive quotient.
* `Decimal.significant` — the rounded digits and the position of the first.
* `Decimal.general` — the text.
-/

namespace MacroConstants.Decimal

/-- The nearest integer to a quotient; of two equally near the even one. -/
def roundDiv (num den : Nat) : Nat :=
  let q := num / den
  let r := num % den
  if 2 * r < den then q
  else if den < 2 * r then q + 1
  else if q % 2 = 0 then q else q + 1

/-- The number of decimal digits, zero having none. -/
def digitCount (n : Nat) : Nat := if n = 0 then 0 else (Nat.toDigits 10 n).length

/-- The exponent of the largest power of ten not above a positive quotient. -/
def leading (num den : Nat) : Int :=
  if den ≤ num then digitCount (num / den) - 1
  else -(digitCount ((den - 1) / num) : Int)

/-- A quotient times a power of ten, rounded to an integer. -/
def scaled (num den : Nat) (power : Int) : Nat :=
  roundDiv (num * 10 ^ power.toNat) (den * 10 ^ (-power).toNat)

/-- A positive quotient to `precision` significant digits: the digits as a number with exactly
that many, and the exponent of the first.  Rounding up to the next power of ten moves the
first digit by one place. -/
def significant (precision num den : Nat) : Nat × Int :=
  let place := leading num den
  let digits := scaled num den (precision - 1 - place)
  if digits = 10 ^ precision then (10 ^ (precision - 1), place + 1) else (digits, place)

/-- A point and digits, or nothing where there are no digits. -/
def fractionText (digits : Bytes) : Bytes :=
  if digits.isEmpty then [] else ascii '.' :: digits

/-- An exponent: its sign and at least two digits. -/
def exponentText (e : Int) : Bytes :=
  let digits := Numeral.decimal e.natAbs
  bytes "e" ++ (if e < 0 then bytes "-" else bytes "+") ++
    (if digits.length < 2 then ascii '0' :: digits else digits)

/-- Significant digits as text, the first one at the decimal place `place`: with an exponent
when it is below minus four or not below the precision, else positionally. -/
def layout (precision : Nat) (digits : Nat) (place : Int) : Bytes :=
  let text := Numeral.decimal digits
  let shorten := Bytes.trimEnd (· == ascii '0')
  if place < -4 ∨ precision ≤ place then
    text.take 1 ++ fractionText (shorten (text.drop 1)) ++ exponentText place
  else if place < 0 then
    bytes "0." ++ List.replicate (-place - 1).toNat (ascii '0') ++ shorten text
  else
    text.take (place.toNat + 1) ++ fractionText (shorten (text.drop (place.toNat + 1)))

/-- A binary number with at most `precision` significant digits; infinities and NaN by name,
each with its sign. -/
def general (precision : Nat) (x : Binary64) : Bytes :=
  let magnitude :=
    if x.isNaN then bytes "nan"
    else if !x.isFinite then bytes "inf"
    else if x.isZero then bytes "0"
    else
      let (num, den) := x.ratio
      let (digits, first) := significant precision num den
      layout precision digits first
  if x.negative then ascii '-' :: magnitude else magnitude

end MacroConstants.Decimal
