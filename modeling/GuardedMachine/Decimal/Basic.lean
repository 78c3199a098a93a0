/-
# Decimals

A decimal is a sign, a mantissa and a scale: it stands for the mantissa divided by ten to
the power of its scale, with the sign put in front.  The mantissa fits into 96 bits and the
scale is at most 28; both bounds are part of the type.

The same number has several decimals (`1`, `1.0`, `1.00`), and zero has two signs.  Printing
shows the difference; comparison (`sameNumber`, `less`, `atMost`) does not, because it looks
at the number only.
-/

namespace GuardedMachine

/-- The greatest mantissa: the greatest number of 96 bits. -/
def maxMantissa : Nat := 79228162514264337593543950335

/-- The greatest number of fraction digits. -/
def maxScale : Nat := 28

/-- A decimal number of at most 96 bits and at most 28 fraction digits. -/
structure Decimal where
  /-- The sign; a zero may be negative too. -/
  negative : Bool
  /-- All digits of the number, read as one integer. -/
  mantissa : Nat
  /-- How many of the digits belong to the fraction. -/
  scale : Nat
  mantissa_le : mantissa ≤ maxMantissa
  scale_le : scale ≤ maxScale
deriving DecidableEq, Repr

namespace Decimal

/-- Plain zero: no sign, no fraction digits. -/
def zero : Decimal := ⟨false, 0, 0, Nat.zero_le _, Nat.zero_le _⟩

instance : Inhabited Decimal := ⟨zero⟩

/-- The decimal with the given parts, if they are within the bounds. -/
def ofParts? (negative : Bool) (mantissa scale : Nat) : Option Decimal :=
  if h : mantissa ≤ maxMantissa ∧ scale ≤ maxScale then
    some ⟨negative, mantissa, scale, h.1, h.2⟩
  else
    none

/-- The integer `n` as a decimal without fraction digits. -/
def ofInt (n : Int) (h : n.natAbs ≤ maxMantissa) : Decimal :=
  ⟨decide (n < 0), n.natAbs, 0, h, Nat.zero_le _⟩

/-- The mantissa with the sign put in front. -/
def coefficient (d : Decimal) : Int :=
  if d.negative then -(d.mantissa : Int) else d.mantissa

/-- Whether the number is zero, whatever its sign and scale. -/
def isZero (d : Decimal) : Bool := d.mantissa == 0

/-! ## Comparison by number -/

/-- The coefficients of two decimals over the common denominator `10 ^ (a.scale + b.scale)`. -/
def overCommonScale (a b : Decimal) : Int × Int :=
  (a.coefficient * Nat.pow 10 b.scale, b.coefficient * Nat.pow 10 a.scale)

/-- Whether two decimals stand for the same number. -/
def sameNumber (a b : Decimal) : Bool :=
  let (x, y) := overCommonScale a b
  x == y

/-- Whether the number of `a` is less than the number of `b`. -/
def less (a b : Decimal) : Bool :=
  let (x, y) := overCommonScale a b
  decide (x < y)

/-- Whether the number of `a` is at most the number of `b`. -/
def atMost (a b : Decimal) : Bool :=
  let (x, y) := overCommonScale a b
  decide (x ≤ y)

theorem sameNumber_refl (a : Decimal) : a.sameNumber a = true := by
  simp [sameNumber, overCommonScale]

/-! ## The smallest scale -/

/-- Drop trailing zeros of a mantissa as long as there are fraction digits: the mantissa
and the scale that are left. -/
def stripZeros (mantissa : Nat) : (scale : Nat) → Nat × Nat
  | 0 => (mantissa, 0)
  | scale + 1 =>
    if mantissa % 10 = 0 then stripZeros (mantissa / 10) scale else (mantissa, scale + 1)

theorem stripZeros_fst_le (mantissa scale : Nat) :
    (stripZeros mantissa scale).1 ≤ mantissa := by
  induction scale generalizing mantissa with
  | zero => simp [stripZeros]
  | succ scale ih =>
    rw [stripZeros]
    split
    · exact Nat.le_trans (ih _) (Nat.div_le_self _ _)
    · exact Nat.le_refl _

theorem stripZeros_snd_le (mantissa scale : Nat) :
    (stripZeros mantissa scale).2 ≤ scale := by
  induction scale generalizing mantissa with
  | zero => simp [stripZeros]
  | succ scale ih =>
    rw [stripZeros]
    split
    · exact Nat.le_succ_of_le (ih _)
    · exact Nat.le_refl _

/-- Stripping zeros keeps the number. -/
theorem stripZeros_value (mantissa scale : Nat) :
    (stripZeros mantissa scale).1 * Nat.pow 10 scale
      = mantissa * Nat.pow 10 (stripZeros mantissa scale).2 := by
  induction scale generalizing mantissa with
  | zero => simp [stripZeros]
  | succ scale ih =>
    rw [stripZeros]
    split
    · rename_i h
      have hm : mantissa = mantissa / 10 * 10 := by omega
      have hpow : Nat.pow 10 (scale + 1) = Nat.pow 10 scale * 10 := rfl
      rw [hpow, ← Nat.mul_assoc, ih, Nat.mul_right_comm, ← hm]
    · rfl

/-- The same number in its smallest scale; zero loses its sign. -/
def normalize (d : Decimal) : Decimal :=
  let stripped := stripZeros d.mantissa d.scale
  ⟨d.negative && d.mantissa != 0, stripped.1, stripped.2,
    Nat.le_trans (stripZeros_fst_le _ _) d.mantissa_le,
    Nat.le_trans (stripZeros_snd_le _ _) d.scale_le⟩

/-- The opposite number: only the sign changes, also that of a zero. -/
def neg (d : Decimal) : Decimal := { d with negative := !d.negative }

instance : Neg Decimal := ⟨neg⟩

/-- A negative zero read as plain zero of the same scale; every other decimal as it is. -/
def withoutNegativeZero (d : Decimal) : Decimal :=
  { d with negative := d.negative && d.mantissa != 0 }

end Decimal

end GuardedMachine
