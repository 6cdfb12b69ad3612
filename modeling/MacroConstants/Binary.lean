import MacroConstants.Bytes.Numeral

/-!
# Binary floating point

The two formats a compiled probe can answer with, as their bit patterns.

* `Binary64` — 64 bits: sign, eleven bits of exponent, fifty-two bits of fraction.
* `Binary64.ratio` — the magnitude of a finite number as an exact quotient.
* `Binary64.agrees` — numeric equality: NaN differs from itself and the two zeros agree.
* `Binary32.widen` — the same number in the wider format.
-/

namespace MacroConstants

/-- A number in the 64-bit binary format. -/
structure Binary64 where
  bits : UInt64
  deriving DecidableEq, Repr, Inhabited

namespace Binary64

/-- Positive zero. -/
def zero : Binary64 := ⟨0⟩

/-- Whether the sign bit is set. -/
def negative (x : Binary64) : Bool := 2 ^ 63 ≤ x.bits.toNat

/-- The eleven bits of biased exponent. -/
def exponent (x : Binary64) : Nat := x.bits.toNat / 2 ^ 52 % 2048

/-- The fifty-two bits of fraction. -/
def fraction (x : Binary64) : Nat := x.bits.toNat % 2 ^ 52

/-- Neither infinite nor NaN. -/
def isFinite (x : Binary64) : Bool := x.exponent != 2047

/-- Not a number. -/
def isNaN (x : Binary64) : Bool := x.exponent == 2047 && x.fraction != 0

/-- One of the two zeros. -/
def isZero (x : Binary64) : Bool := x.exponent == 0 && x.fraction == 0

/-- The magnitude of a finite number as numerator and denominator: fraction times `2 ^ -1074`
for the smallest exponent, else the fraction with its leading bit, scaled by the exponent. -/
def ratio (x : Binary64) : Nat × Nat :=
  if x.exponent = 0 then (x.fraction, 2 ^ 1074)
  else if 1075 ≤ x.exponent then ((x.fraction + 2 ^ 52) * 2 ^ (x.exponent - 1075), 1)
  else (x.fraction + 2 ^ 52, 2 ^ (1075 - x.exponent))

/-- Numeric equality. -/
def agrees (x y : Binary64) : Bool :=
  !x.isNaN && !y.isNaN && (x.bits == y.bits || (x.isZero && y.isZero))

end Binary64

/-- A number in the 32-bit binary format. -/
structure Binary32 where
  bits : UInt32
  deriving DecidableEq, Repr, Inhabited

namespace Binary32

/-- The same number in the 64-bit format; a NaN keeps its payload and becomes quiet, a number
below the normal range is normalised. -/
def widen (x : Binary32) : Binary64 :=
  let sign := x.bits.toNat / 2 ^ 31
  let exponent := x.bits.toNat / 2 ^ 23 % 256
  let fraction := x.bits.toNat % 2 ^ 23
  let magnitude :=
    if exponent = 255 then
      let quiet := if fraction = 0 ∨ 2 ^ 22 ≤ fraction then 0 else 2 ^ 51
      2047 * 2 ^ 52 + fraction * 2 ^ 29 + quiet
    else if exponent = 0 then
      if fraction = 0 then 0
      else
        let top := fraction.log2
        (top + 874) * 2 ^ 52 + (fraction - 2 ^ top) * 2 ^ (52 - top)
    else (exponent + 896) * 2 ^ 52 + fraction * 2 ^ 29
  ⟨(sign * 2 ^ 63 + magnitude).toUInt64⟩

end Binary32

end MacroConstants
