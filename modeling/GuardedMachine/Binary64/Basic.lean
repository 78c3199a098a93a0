/-
# Finite binary floating-point numbers of 64 bits

A finite double is a sign, a significand below `2 ^ 53` and an exponent of two.  Numbers of a
document that are not plain integers are read as the double nearest to them.  This file gives
that reading (`ofLiteral?`) in exact arithmetic; numbers beyond the greatest double have none.
-/
import GuardedMachine.Ratio

namespace GuardedMachine

/-- A finite double: `significand * 2 ^ exponent`, with the sign put in front. -/
structure Binary64 where
  /-- The sign; zero has one too. -/
  negative : Bool
  /-- The significand, below `2 ^ 53`. -/
  significand : Nat
  /-- The exponent of two, from `-1074` to `971`. -/
  exponent : Int
deriving DecidableEq, Repr

namespace Binary64

/-- The least exponent: that of the subnormal numbers. -/
def minExponent : Int := -1074

/-- The greatest exponent of a finite double. -/
def maxExponent : Int := 971

/-- The exponent of the double nearest to a positive ratio: the least one, from the subnormal
one on, at which the whole part of the significand has at most 53 bits. -/
def exponentOf (r : Ratio) : Int :=
  -- The ratio lies between the powers of two with exponents `guess + 52` and `guess + 54`.
  let guess : Int := (r.num.log2 : Int) - r.den.log2 - 53
  max minExponent (if (r.timesPower 2 (-guess)).floor < Nat.pow 2 53 then guess else guess + 1)

/-- The double nearest to a ratio, of two the one with an even significand, if it is finite. -/
def nearest? (negative : Bool) (r : Ratio) : Option Binary64 :=
  if r.num = 0 then
    some ⟨negative, 0, minExponent⟩
  else
    let exponent := exponentOf r
    let significand := (r.timesPower 2 (-exponent)).nearest
    -- Rounding may carry into a 54th bit.
    let (significand, exponent) :=
      if significand = Nat.pow 2 53 then (Nat.pow 2 52, exponent + 1) else (significand, exponent)
    if exponent ≤ maxExponent then some ⟨negative, significand, exponent⟩ else none

/-- The double nearest to `digits * 10 ^ exponent`. -/
def ofLiteral? (negative : Bool) (digits : Nat) (exponent : Int) : Option Binary64 :=
  nearest? negative ((Ratio.ofNat digits).timesPower 10 exponent)

/-- The magnitude of a double. -/
def magnitude (x : Binary64) : Ratio := (Ratio.ofNat x.significand).timesPower 2 x.exponent

end Binary64

end GuardedMachine
