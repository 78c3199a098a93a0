/-
# Ratios of natural numbers

A ratio is a pair of natural numbers, read as a quotient; the second one is positive wherever
a ratio is used.  Ratios are enough to compare non-negative numbers exactly and to round them:
`nearest` gives the integer next to a ratio, of two equally near ones the even one, and
`nearestUp` of two equally near ones the greater one.
-/

namespace GuardedMachine

/-- The number `num / den`. -/
structure Ratio where
  /-- The numerator. -/
  num : Nat
  /-- The denominator. -/
  den : Nat
deriving DecidableEq, Repr

namespace Ratio

/-- A natural number as a ratio. -/
def ofNat (n : Nat) : Ratio := ⟨n, 1⟩

/-- A ratio multiplied by a power, whose exponent may be negative. -/
def timesPower (r : Ratio) (base : Nat) (exponent : Int) : Ratio :=
  if 0 ≤ exponent then ⟨r.num * base.pow exponent.toNat, r.den⟩
  else ⟨r.num, r.den * base.pow (-exponent).toNat⟩

/-- The whole part of a ratio. -/
def floor (r : Ratio) : Nat := r.num / r.den

/-- Twice the numerator of what the whole part leaves. -/
def twiceRemainder (r : Ratio) : Nat := 2 * (r.num % r.den)

/-- The integer nearest to a ratio, of two the even one. -/
def nearest (r : Ratio) : Nat :=
  if r.den < r.twiceRemainder ∨ (r.twiceRemainder = r.den ∧ r.floor % 2 = 1) then r.floor + 1
  else r.floor

/-- The integer nearest to a ratio, of two the greater one. -/
def nearestUp (r : Ratio) : Nat :=
  if r.den ≤ r.twiceRemainder then r.floor + 1 else r.floor

/-- Whether a ratio is above a natural number. -/
def above (r : Ratio) (n : Nat) : Bool := decide (n * r.den < r.num)

/-- Whether a ratio is below a natural number. -/
def below (r : Ratio) (n : Nat) : Bool := decide (r.num < n * r.den)

theorem nearest_eq_of_mod_eq_zero {r : Ratio} (hd : 0 < r.den) (h : r.num % r.den = 0) :
    r.nearest = r.floor := by
  have htwice : r.twiceRemainder = 0 := by simp [twiceRemainder, h]
  rw [nearest, if_neg]
  rintro (hlt | ⟨heq, -⟩)
  · omega
  · omega

end Ratio

end GuardedMachine
