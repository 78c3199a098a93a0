/-
# From a double to a decimal

A double `m * 2 ^ e` becomes a decimal in four steps.  The power of two is first turned into
a power of ten, one factor five or two at a time, as far as the mantissa stays within 96 bits.
What then is left of the power of ten above the unit is multiplied into the mantissa.
Digits beyond the greatest scale are rounded away, and after that the digits that a double
does not determine: as long as the mantissa needs more than 52 bits, its last digit is
rounded away.  The trailing zeros of the fraction go last.  A double that is too large has no
decimal.
-/
import GuardedMachine.Binary64.Basic
import GuardedMachine.Decimal.Basic

namespace GuardedMachine

namespace Binary64

/-- The least number of 97 bits. -/
def mantissaBound : Nat := Nat.pow 2 96

/-- The mantissa and the exponent of ten of `m * 10 ^ ten / 5 ^ fives`: each factor five of
the denominator is taken from a factor two of the mantissa or multiplied in, and where
neither is possible the last bit is dropped. -/
def absorbHalves : (fives : Nat) → (m : Nat) → (ten : Int) → Nat × Int
  | 0, m, ten => (m, ten)
  | fives + 1, m, ten =>
    if m % 2 = 0 then absorbHalves fives (m / 2) (ten + 1)
    else if m * 5 < mantissaBound then absorbHalves fives (m * 5) ten
    else absorbHalves fives (m / 2) (ten + 1)

/-- The mantissa and the exponent of ten of `m * 10 ^ ten / 5 ^ fives`, where the power of
ten is the larger one: each factor five of the denominator is paired with a doubling of the
mantissa, and where that does not fit the mantissa is divided.  There is no result if the
power of ten is still too large then. -/
def absorbDoublings : (fives : Nat) → (m : Nat) → (ten : Int) → Option (Nat × Int)
  | 0, m, ten => some (m, ten)
  | fives + 1, m, ten =>
    if m < mantissaBound / 2 then absorbDoublings fives (m * 2) (ten - 1)
    else if ten * 2 > fives + 1 then none
    else absorbDoublings fives (m / 5) ten

/-- The mantissa multiplied by a power of ten, if it stays within 96 bits. -/
def scaleUp? : (ten : Nat) → (m : Nat) → Option Nat
  | 0, m => some m
  | ten + 1, m => if m * 10 < mantissaBound then scaleUp? ten (m * 10) else none

/-- Round away the last digit, a half upwards. -/
def dropDigit (m : Nat) : Nat := if 5 ≤ m % 10 then m / 10 + 1 else m / 10

/-- Round away digits one by one until the scale is in range; a mantissa without digits left
is zero at once. -/
def dropExcess : (excess : Nat) → (m : Nat) → (scale : Nat) → Nat × Nat
  | 0, m, scale => (m, scale)
  | excess + 1, m, scale =>
    if m / 10 = 0 then (0, 0) else dropExcess excess (dropDigit m) (scale - 1)

/-- Round away fraction digits as long as the mantissa needs more than 52 bits. -/
def dropUndetermined : (scale : Nat) → (m : Nat) → Nat × Nat
  | 0, m => (m, 0)
  | scale + 1, m =>
    if Nat.pow 2 52 ≤ m then dropUndetermined scale (dropDigit m) else (m, scale + 1)

/-- The mantissa and the scale of the decimal of a positive double. -/
def decimalParts? (x : Binary64) : Option (Nat × Nat) := do
  let (m, ten) ←
    if x.exponent ≤ 0 then
      some (absorbHalves (-x.exponent).toNat x.significand x.exponent)
    else
      absorbDoublings x.exponent.toNat x.significand x.exponent
  let m ← scaleUp? ten.toNat m
  let scale := (-ten).toNat
  let (m, scale) := dropExcess (scale - maxScale) m scale
  let (m, scale) := dropUndetermined scale m
  pure (Decimal.stripZeros m scale)

end Binary64

/-- The decimal of a double, if it has one; a zero keeps its sign. -/
def Decimal.ofBinary64? (x : Binary64) : Option Decimal :=
  if x.significand = 0 then
    ofParts? x.negative 0 0
  else do
    let (m, scale) ← x.decimalParts?
    ofParts? x.negative m scale

end GuardedMachine
