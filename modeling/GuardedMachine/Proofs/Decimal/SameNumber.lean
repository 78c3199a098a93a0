/-
# Decimals that stand for the same number

The same number can be written as several decimals, but it has only one smallest scale: two
decimals stand for the same number if and only if bringing them to their smallest scale gives
the same decimal (`normalize_eq_iff`).

Sums, differences and products look at their operands in the smallest scale only.  So none of
them depends on the way its operands are written: neither its result, nor whether and how it
fails.
-/
import GuardedMachine.Proofs.Decimal.Exact

namespace GuardedMachine

namespace Decimal

/-! ## The smallest scale -/

/-- When trailing zeros have been dropped, there is no fraction, or its last digit is not zero. -/
lemma stripZeros_reduced (mantissa scale : Nat) :
    (stripZeros mantissa scale).2 = 0 ∨ (stripZeros mantissa scale).1 % 10 ≠ 0 := by
  induction scale generalizing mantissa with
  | zero => exact Or.inl rfl
  | succ scale ih =>
    rw [stripZeros]
    split
    · exact ih _
    · rename_i hdigit
      exact Or.inr hdigit

/-- A fraction whose last digit is not zero has no smaller scale. -/
lemma scale_le_of_reduced {m m' s s' : Nat} (hreduced : s' = 0 ∨ m' % 10 ≠ 0)
    (h : m * 10 ^ s' = m' * 10 ^ s) : s' ≤ s := by
  by_contra hlt
  obtain ⟨k, rfl⟩ : ∃ k, s' = s + 1 + k := ⟨s' - (s + 1), by omega⟩
  have hpos : 0 < 10 ^ s := by positivity
  have hmantissa : m * 10 ^ k * 10 = m' := by
    refine Nat.eq_of_mul_eq_mul_right hpos ?_
    rw [← h]
    ring
  have hdigit : m' % 10 = 0 := by
    rw [← hmantissa]
    exact Nat.mul_mod_left _ _
  rcases hreduced with hzero | hnonzero
  · omega
  · exact hnonzero hdigit

/-- Equal fractions are the same when their trailing zeros have been dropped. -/
lemma stripZeros_eq_of_mul_eq {m m' s s' : Nat} (h : m * 10 ^ s' = m' * 10 ^ s) :
    stripZeros m s = stripZeros m' s' := by
  have hvalue := stripZeros_value m s
  have hvalue' := stripZeros_value m' s'
  have hreduced := stripZeros_reduced m s
  have hreduced' := stripZeros_reduced m' s'
  generalize stripZeros m s = p at hvalue hreduced ⊢
  generalize stripZeros m' s' = p' at hvalue' hreduced' ⊢
  obtain ⟨x, i⟩ := p
  obtain ⟨y, j⟩ := p'
  dsimp only [Nat.pow_eq] at hvalue hvalue' hreduced hreduced'
  have hpos : 0 < 10 ^ s * 10 ^ s' := by positivity
  have hcross : x * 10 ^ j = y * 10 ^ i := by
    refine Nat.eq_of_mul_eq_mul_right hpos ?_
    calc x * 10 ^ j * (10 ^ s * 10 ^ s')
        = x * 10 ^ s * 10 ^ j * 10 ^ s' := by ring
      _ = m * 10 ^ s' * (10 ^ i * 10 ^ j) := by rw [hvalue]; ring
      _ = m' * 10 ^ j * (10 ^ i * 10 ^ s) := by rw [h]; ring
      _ = y * 10 ^ i * (10 ^ s * 10 ^ s') := by rw [← hvalue']; ring
  have hscale : i = j :=
    Nat.le_antisymm (scale_le_of_reduced hreduced hcross.symm)
      (scale_le_of_reduced hreduced' hcross)
  subst hscale
  have hmantissa : x = y := Nat.eq_of_mul_eq_mul_right (by positivity) hcross
  rw [hmantissa]

/-! ## Signs and magnitudes -/

variable {a a' b b' : Decimal}

/-- A decimal is below zero if it has the sign and is not a zero. -/
lemma negative_and_ne_zero (d : Decimal) :
    (d.negative && d.mantissa != 0) = decide (d.toRat < 0) := by
  have hmagnitude : (0 : ℚ) ≤ d.mantissa / 10 ^ d.scale := by positivity
  rw [Bool.eq_iff_iff, decide_eq_true_iff, Bool.and_eq_true, bne_iff_ne, toRat_eq]
  rcases d.negative with _ | _
  · simp [signFactor, hmagnitude]
  · simp [signFactor]

lemma abs_toRat (d : Decimal) : |d.toRat| = d.mantissa / 10 ^ d.scale := by
  have hmagnitude : (0 : ℚ) ≤ d.mantissa / 10 ^ d.scale := by positivity
  rw [toRat_eq, abs_mul, abs_of_nonneg hmagnitude]
  rcases d.negative with _ | _ <;> simp [signFactor]

/-- Decimals of one number have the same magnitude. -/
lemma mantissa_mul_eq (h : a.toRat = a'.toRat) :
    a.mantissa * 10 ^ a'.scale = a'.mantissa * 10 ^ a.scale := by
  have hpow : (10 : ℚ) ^ a.scale ≠ 0 := by positivity
  have hpow' : (10 : ℚ) ^ a'.scale ≠ 0 := by positivity
  have hmagnitude : (a.mantissa : ℚ) / 10 ^ a.scale = a'.mantissa / 10 ^ a'.scale := by
    rw [← abs_toRat, ← abs_toRat, h]
  rw [div_eq_div_iff hpow hpow'] at hmagnitude
  exact_mod_cast hmagnitude

/-- Two decimals stand for the same number if and only if they have the same smallest scale and
are the same in it. -/
lemma normalize_eq_iff : a.normalize = a'.normalize ↔ a.toRat = a'.toRat := by
  constructor
  · intro h
    rw [← toRat_normalize a, h, toRat_normalize]
  · intro h
    have hstripped := stripZeros_eq_of_mul_eq (mantissa_mul_eq h)
    have hsign : (a.negative && a.mantissa != 0) = (a'.negative && a'.mantissa != 0) := by
      rw [negative_and_ne_zero, negative_and_ne_zero, h]
    simp only [normalize, hstripped, hsign]

/-! ## Operations -/

lemma sum_eq (ha : a.toRat = a'.toRat) (hb : b.toRat = b'.toRat) : a.sum b = a'.sum b' := by
  rw [sum, sum, normalize_eq_iff.2 ha, normalize_eq_iff.2 hb]

lemma difference_eq (ha : a.toRat = a'.toRat) (hb : b.toRat = b'.toRat) :
    a.difference b = a'.difference b' := by
  have hneg : (-b).toRat = (-b').toRat := by rw [toRat_neg, toRat_neg, hb]
  exact sum_eq ha hneg

lemma product_eq (ha : a.toRat = a'.toRat) (hb : b.toRat = b'.toRat) :
    a.product b = a'.product b' := by
  rw [product, product, normalize_eq_iff.2 ha, normalize_eq_iff.2 hb]

end Decimal

end GuardedMachine
