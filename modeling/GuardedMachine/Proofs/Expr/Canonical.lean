/-
# Sums, differences and products are canonical

Sums and products look at the numbers of their operands only, and neither minds which operand
comes first.  So for equal numbers, in either order, the result is the same decimal, digit for
digit, and a failure is the same failure.

What a sum or a difference gives has no trailing fraction zeros.  Therefore no smaller scale holds
the number (`Canonical`), and its sign is taken from the coefficient, so that a zero has none.
Products are not canonical in this sense: they keep the digits that fit.
-/
import GuardedMachine.Proofs.Decimal.Representable
import GuardedMachine.Expr.Evaluation

namespace GuardedMachine

namespace Decimal

/-- A decimal in the smallest scale that holds its number, without a sign if it is zero. -/
structure Canonical (d : Decimal) : Prop where
  scale_le : ∀ (n : ℤ) (s : ℕ), d.toRat = n / 10 ^ s → d.scale ≤ s
  negative_eq : d.mantissa = 0 → d.negative = false

variable {a b c : Decimal}

/-! ## The order of the operands -/

lemma sum_comm (a b : Decimal) : a.sum b = b.sum a := by
  simp only [sum_eq_unboundedSum, unboundedSum]
  rw [max_comm, add_comm]

lemma trailingZeros_comm (m n : ℕ) : trailingZeros m n = trailingZeros n m := by
  rw [trailingZeros, trailingZeros, Nat.add_comm (factorCount 2 m), Nat.add_comm (factorCount 5 m)]

lemma roundedProduct?_comm (a b : Decimal) : roundedProduct? a b = roundedProduct? b a := by
  have hsign : (a.negative != b.negative) = (b.negative != a.negative) := Bool.xor_comm _ _
  rw [roundedProduct?, roundedProduct?, hsign, Nat.mul_comm, Nat.add_comm]

lemma product_comm (a b : Decimal) : a.product b = b.product a := by
  simp only [product]
  rw [Bool.or_comm, roundedProduct?_comm, trailingZeros_comm, Nat.add_comm]

/-! ## The smallest scale -/

lemma canonical_of_ofCoefficient {n : ℤ} {s : ℕ} (h : ofCoefficient n s = .ok c) :
    c.Canonical := by
  have hvalue := toRat_of_ofCoefficient h
  simp only [ofCoefficient] at h
  split at h
  · rename_i d hd
    obtain rfl := Except.ok.inj h
    obtain ⟨hnegative, hmantissa, hscale⟩ := parts_of_ofParts? hd
    have hreduced : d.Reduced := by
      rw [Reduced, hmantissa, hscale]
      exact stripZeros_reduced n.natAbs s
    refine ⟨fun n s => hreduced.scale_le, fun hzero => ?_⟩
    -- the coefficient of a zero is not negative
    rw [toRat_eq_zero_iff.2 hzero, eq_comm, div_eq_zero_iff] at hvalue
    have hn : n = 0 := by
      rcases hvalue with hn | hpow
      · exact_mod_cast hn
      · exact absurd hpow (by positivity)
    rw [hnegative, hn]
    rfl
  · cases h

lemma canonical_of_sum (h : a.sum b = .ok c) : c.Canonical := by
  rw [sum_eq_unboundedSum] at h
  exact canonical_of_ofCoefficient h

end Decimal

namespace ArithOp

open Decimal

lemma eq_ok_of_mapError {op : ArithOp} {r : Except Failure Decimal} {c : Decimal}
    (h : r.mapError op.error = .ok c) : r = .ok c := by
  rcases r with failure | d
  · cases h
  · cases h
    rfl

/-- **Sums, differences and products are canonical.**  They depend on the numbers of their
operands only, sums and products not on their order either: the result is the same decimal, with
its scale and its sign, and an error is the same error.  A sum or a difference is in the smallest
scale that holds the number, and is no negative zero. -/
theorem apply_eq_of_toRat_eq (a a' b b' : Decimal) (ha : a.toRat = a'.toRat)
    (hb : b.toRat = b'.toRat) :
    ArithOp.add.apply a b = ArithOp.add.apply b' a' ∧
    ArithOp.mul.apply a b = ArithOp.mul.apply b' a' ∧
    ArithOp.sub.apply a b = ArithOp.sub.apply a' b' ∧
    (∀ c, ArithOp.add.apply a b = .ok c → c.Canonical) ∧
    (∀ c, ArithOp.sub.apply a b = .ok c → c.Canonical) := by
  refine ⟨?_, ?_, ?_, fun c hc => ?_, fun c hc => ?_⟩
  · have hsum : a.sum b = b'.sum a' := (sum_eq ha hb).trans (sum_comm a' b')
    simp only [apply, applyBy, hsum]
  · have hproduct : a.product b = b'.product a' := (product_eq ha hb).trans (product_comm a' b')
    simp only [apply, applyBy, hproduct]
  · simp only [apply, applyBy, difference_eq ha hb]
  · exact canonical_of_sum (eq_ok_of_mapError hc)
  · exact canonical_of_sum (eq_ok_of_mapError hc)

/-- `1.50` and `-1.5` add up to plain zero, in whatever way and order they are written. -/
theorem apply_eq_of_toRat_eq_cancelled :
    let a : Decimal := ⟨false, 150, 2, by decide, by decide⟩
    let a' : Decimal := ⟨false, 1500, 3, by decide, by decide⟩
    let b : Decimal := ⟨true, 15, 1, by decide, by decide⟩
    let b' : Decimal := ⟨true, 150, 2, by decide, by decide⟩
    a.toRat = a'.toRat ∧ b.toRat = b'.toRat ∧ ArithOp.add.apply b' a' = .ok zero ∧
      zero.Canonical := by
  intro a a' b b'
  have ha : a.toRat = a'.toRat := by norm_num [a, a', toRat, coefficient]
  have hb : b.toRat = b'.toRat := by norm_num [b, b', toRat, coefficient]
  have hzero : ArithOp.add.apply a b = .ok zero := by decide +kernel
  obtain ⟨hsum, -, -, hcanonical, -⟩ := apply_eq_of_toRat_eq a a' b b' ha hb
  exact ⟨ha, hb, hsum.symm.trans hzero, hcanonical zero hzero⟩

end ArithOp

end GuardedMachine
