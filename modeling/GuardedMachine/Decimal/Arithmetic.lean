/-
# Exact arithmetic on decimals

Sum, difference, product and quotient never round.  Each gives the exact number as a decimal
or fails, and a failure is one of two kinds: the number is out of range (`overflow`), or it
has more digits than a decimal holds (`inexact`); a quotient by zero is a third.

* A sum is computed on signed 128-bit integers aligned to the larger scale, and its trailing
  fraction zeros are dropped.  Both operands are brought to their smallest scale first, so a
  number that does not fit into 128 bits is not brought back into range by what follows.
* A product is the rounded product of the operands together with a test that nothing was
  rounded away.  The test counts the factors two and five of the two mantissas: the smaller
  count is the number of trailing zeros of their product, which itself may need 192 bits.
* A quotient is the rounded quotient of the operands, kept only if it multiplies back to the
  dividend.  The operands are taken as they are written, and so the quotient may have trailing
  fraction zeros.  The division that rounds is a parameter; `roundedQuotient?` is one.
-/
import GuardedMachine.Decimal.Basic
import GuardedMachine.Ratio

namespace GuardedMachine

namespace Decimal

/-- Why an operation has no result. -/
inductive Failure
  /-- The result is out of range. -/
  | overflow
  /-- The result has more digits than a decimal holds. -/
  | inexact
  /-- The divisor is zero. -/
  | divisionByZero
deriving DecidableEq, Repr

/-! ## Sums -/

/-- An integer, if it is a signed integer of 128 bits. -/
def int128? : Int → Option Int
  | .ofNat n => if n < Nat.pow 2 127 then some (.ofNat n) else none
  | .negSucc n => if n < Nat.pow 2 127 then some (.negSucc n) else none

/-- The coefficient of `d` at a scale not smaller than its own, if it fits into 128 bits. -/
def aligned? (d : Decimal) (scale : Nat) : Option Int := do
  let factor ← int128? (Nat.pow 10 (scale - d.scale))
  int128? (d.coefficient * factor)

/-- The failure of a sum that is no decimal at the given scale: an integer is out of range,
and a number with a fraction has too many digits. -/
def unrepresentable (scale : Nat) : Failure :=
  if scale = 0 then .overflow else .inexact

/-- The decimal of an integer coefficient at a scale, with its trailing fraction zeros
dropped. -/
def ofCoefficient (coefficient : Int) (scale : Nat) : Except Failure Decimal :=
  let stripped := stripZeros coefficient.natAbs scale
  match ofParts? (decide (coefficient < 0)) stripped.1 stripped.2 with
  | some d => .ok d
  | none => .error (unrepresentable stripped.2)

/-- The exact sum in its smallest scale. -/
def sum (a b : Decimal) : Except Failure Decimal :=
  let a := a.normalize
  let b := b.normalize
  let scale := max a.scale b.scale
  let total? : Option Int := do
    let x ← a.aligned? scale
    let y ← b.aligned? scale
    int128? (x + y)
  match total? with
  | some total => ofCoefficient total scale
  | none => .error (unrepresentable scale)

/-- The exact difference in its smallest scale. -/
def difference (a b : Decimal) : Except Failure Decimal := sum a (-b)

/-! ## Products -/

/-- The greatest scale, not above the given one, at which the whole part of the mantissa of
`m / 10 ^ s` is within the bound. -/
def fittingScale? (m s : Nat) : (scale : Nat) → Option Nat
  | 0 => if m / Nat.pow 10 s ≤ maxMantissa then some 0 else none
  | scale + 1 =>
    if m / Nat.pow 10 (s - (scale + 1)) ≤ maxMantissa then some (scale + 1)
    else fittingScale? m s scale

/-- The number `m / 10 ^ s` rounded half to even at the greatest scale at which its mantissa
fits; none if not even the integer nearest to it does. -/
def rounded? (negative : Bool) (m s : Nat) : Option Decimal := do
  let scale ← fittingScale? m s (min s maxScale)
  let at? (scale : Nat) : Option Decimal :=
    ofParts? negative (Ratio.nearest ⟨m, Nat.pow 10 (s - scale)⟩) scale
  -- Rounding up may exceed the bound; then one digit less is tried.
  match at? scale, scale with
  | some d, _ => some d
  | none, scale + 1 => at? scale
  | none, 0 => none

/-- The product of two decimals, rounded to the digits that a decimal holds; none if it is
out of range. -/
def roundedProduct? (a b : Decimal) : Option Decimal :=
  rounded? (a.negative != b.negative) (a.mantissa * b.mantissa) (a.scale + b.scale)

/-- How many times `p` divides `n`; zero for `n = 0` and for `p ≤ 1`. -/
def factorCount (p n : Nat) : Nat :=
  if h : 1 < p ∧ 0 < n ∧ n % p = 0 then
    factorCount p (n / p) + 1
  else
    0
termination_by n
decreasing_by exact Nat.div_lt_self h.2.1 h.1

/-- How many trailing zeros the product of two mantissas has, from their factors. -/
def trailingZeros (m n : Nat) : Nat :=
  min (factorCount 2 m + factorCount 2 n) (factorCount 5 m + factorCount 5 n)

/-- The exact product.  Its scale is the sum of the smallest scales of the operands, less
the digits that do not fit. -/
def product (a b : Decimal) : Except Failure Decimal :=
  let a := a.normalize
  let b := b.normalize
  if a.isZero || b.isZero then
    .ok zero
  else
    match roundedProduct? a b with
    | none => .error .overflow
    | some p =>
      -- The exact product has `a.scale + b.scale - trailingZeros` fraction digits.
      if p.normalize.scale + trailingZeros a.mantissa b.mantissa < a.scale + b.scale then
        .error .inexact
      else
        .ok p

/-! ## Quotients -/

/-- The ratio `n / d` rounded half to even at the greatest scale, not above the given one, at
which its mantissa fits; none if not even the integer nearest to it does. -/
def roundedRatio? (negative : Bool) (n d : Nat) : (scale : Nat) → Option Decimal
  | 0 => ofParts? negative (Ratio.nearest ⟨n, d⟩) 0
  | scale + 1 =>
    match ofParts? negative (Ratio.nearest ⟨n * Nat.pow 10 (scale + 1), d⟩) (scale + 1) with
    | some q => some q
    | none => roundedRatio? negative n d scale

/-- The quotient of two decimals, rounded to the digits that a decimal holds; none if it is out
of range.  The fraction keeps the digits that the operands leave it if the mantissas divide, and
has no more digits than it needs if they do not. -/
def roundedQuotient? (a b : Decimal) : Option Decimal :=
  let negative := a.negative != b.negative
  if a.isZero then
    some zero
  else if a.mantissa % b.mantissa = 0 ∧ b.scale ≤ a.scale then
    ofParts? negative (a.mantissa / b.mantissa) (a.scale - b.scale)
  else
    let n := a.mantissa * Nat.pow 10 b.scale
    let d := b.mantissa * Nat.pow 10 a.scale
    (roundedRatio? negative n d maxScale).map normalize

/-- Whether a number multiplied by the divisor gives the dividend back. -/
def multipliesBack (q a b : Decimal) : Bool :=
  match q.product b with
  | .ok back => back.sameNumber a
  | .error _ => false

/-- The exact quotient, from a division that may round: what the division gives, if it multiplies
back to the dividend. -/
def quotientBy (divide : Decimal → Decimal → Option Decimal) (a b : Decimal) :
    Except Failure Decimal :=
  if b.isZero then
    .error .divisionByZero
  else
    match divide a b with
    | none => .error .overflow
    | some q => if multipliesBack q a b then .ok q else .error .inexact

end Decimal

end GuardedMachine
