/-
# Sums on 128 bits

A sum is computed on signed integers of 128 bits, and it fails at once when one of the two aligned
coefficients or their sum is not such an integer.  Computed on integers of any size it comes to the
same: the same decimal, or the same failure.

The reason is that both operands are in their smallest scale.  Only the operand with the smaller
scale is multiplied by a power of ten, so a coefficient can leave 128 bits only where the last
fraction digit of the other operand is not zero and is the last digit of the sum.  Then there are
no zeros to drop, and the other coefficient is too small to bring the sum back into range
(`great_of_int128Sum?_eq_none`).
-/
import GuardedMachine.Proofs.Decimal.OutOfRange

namespace GuardedMachine

namespace Decimal

/-! ## Integers of 128 bits -/

/-- An integer is a signed integer of 128 bits. -/
def InInt128 (n : ℤ) : Prop := -2 ^ 127 ≤ n ∧ n < 2 ^ 127

instance (n : ℤ) : Decidable (InInt128 n) := inferInstanceAs (Decidable (_ ∧ _))

lemma int128?_eq_none_iff {n : ℤ} : int128? n = none ↔ ¬ InInt128 n := by
  cases n with
  | ofNat n =>
    have hbound : (Int.ofNat n < 2 ^ 127) ↔ n < 2 ^ 127 := by
      rw [Int.ofNat_eq_natCast]
      exact_mod_cast Iff.rfl
    have hsign : (-2 ^ 127 : ℤ) ≤ Int.ofNat n := by
      rw [Int.ofNat_eq_natCast]
      exact le_trans (by norm_num) (Int.natCast_nonneg n)
    rw [InInt128, and_iff_right hsign, hbound]
    simp [int128?]
  | negSucc n =>
    have hbound : (-2 ^ 127 ≤ Int.negSucc n) ↔ n < 2 ^ 127 := by
      rw [Int.negSucc_eq, neg_le_neg_iff]
      exact_mod_cast Nat.succ_le_iff
    have hsign : Int.negSucc n < 2 ^ 127 := (Int.negSucc_lt_zero n).trans (by norm_num)
    rw [InInt128, and_iff_left hsign, hbound]
    simp [int128?]

/-! ## Coefficients with their trailing zeros dropped -/

section Coefficient

variable {coefficient : ℤ} {scale : ℕ}

lemma ofParts?_eq_some_iff {negative : Bool} {mantissa scale : ℕ} {d : Decimal} :
    ofParts? negative mantissa scale = some d ↔
      d.negative = negative ∧ d.mantissa = mantissa ∧ d.scale = scale := by
  constructor
  · exact parts_of_ofParts?
  · rintro ⟨rfl, rfl, rfl⟩
    exact dif_pos ⟨d.mantissa_le, d.scale_le⟩

lemma ofCoefficient_eq_ok_iff {d : Decimal} : ofCoefficient coefficient scale = .ok d ↔
    d.negative = decide (coefficient < 0) ∧
      (d.mantissa, d.scale) = stripZeros coefficient.natAbs scale := by
  rw [Prod.ext_iff, ← ofParts?_eq_some_iff]
  simp only [ofCoefficient]
  split <;> simp_all

lemma ofCoefficient_eq_error_iff (hscale : scale ≤ maxScale) {failure : Failure} :
    ofCoefficient coefficient scale = .error failure ↔
      maxMantissa < (stripZeros coefficient.natAbs scale).1 ∧
        failure = unrepresentable (stripZeros coefficient.natAbs scale).2 := by
  have hnone : ofParts? (decide (coefficient < 0)) (stripZeros coefficient.natAbs scale).1
      (stripZeros coefficient.natAbs scale).2 = none ↔
        ¬ (stripZeros coefficient.natAbs scale).1 ≤ maxMantissa :=
    ofParts?_eq_none_iff ((stripZeros_snd_le _ _).trans hscale)
  rw [← not_le, ← hnone]
  simp only [ofCoefficient]
  split
  · rename_i d hd
    simp [hd]
  · rename_i hparts
    simp [hparts, eq_comm]

end Coefficient

/-! ## Sums -/

variable (a b : Decimal)

/-- The mantissa and the scale of a sum when its trailing fraction zeros are dropped. -/
def strippedSum : ℕ × ℕ := stripZeros (a.alignedSum b).natAbs (a.commonScale b)

/-- A sum leaves 128 bits: one of the aligned coefficients, or their sum, is no integer of 128
bits. -/
def LeavesInt128 : Prop :=
  ¬ InInt128 (a.normalize.coefficientAt (a.commonScale b)) ∨
    ¬ InInt128 (b.normalize.coefficientAt (a.commonScale b)) ∨ ¬ InInt128 (a.alignedSum b)

variable {a b}

/-- The checked steps of a sum fail exactly when one of their results is no integer of 128 bits. -/
lemma int128Sum?_eq_none_iff :
    a.normalize.int128Sum? b.normalize (a.commonScale b) = none ↔ a.LeavesInt128 b := by
  have hscale := a.commonScale_le b
  rw [int128Sum?, aligned?_eq hscale, aligned?_eq hscale, LeavesInt128, alignedSum,
    ← int128?_eq_none_iff, ← int128?_eq_none_iff, ← int128?_eq_none_iff]
  generalize a.normalize.coefficientAt (a.commonScale b) = x
  generalize b.normalize.coefficientAt (a.commonScale b) = y
  rcases hx : int128? x with _ | x'
  · simp
  rcases hy : int128? y with _ | y'
  · simp
  · rw [eq_of_int128? hx, eq_of_int128? hy]
    simp

/-- When a sum leaves 128 bits, there are no zeros to drop, and it is out of the bounds. -/
lemma LeavesInt128.strippedSum_eq (h : a.LeavesInt128 b) :
    a.strippedSum b = ((a.alignedSum b).natAbs, a.commonScale b) ∧
      maxMantissa < (a.alignedSum b).natAbs := by
  obtain ⟨hdigit, hgreat⟩ := great_of_int128Sum?_eq_none a.reduced_normalize b.reduced_normalize
    rfl (int128Sum?_eq_none_iff.2 h)
  exact ⟨stripZeros_of_mod_ne_zero hdigit _, hgreat⟩

lemma sum_eq_ok_iff {c : Decimal} : a.sum b = .ok c ↔
    c.negative = decide (a.alignedSum b < 0) ∧ (c.mantissa, c.scale) = a.strippedSum b := by
  rw [sum_eq_unboundedSum]
  exact ofCoefficient_eq_ok_iff

lemma sum_eq_error_iff {failure : Failure} : a.sum b = .error failure ↔
    maxMantissa < (a.strippedSum b).1 ∧ failure = unrepresentable (a.strippedSum b).2 := by
  rw [sum_eq_unboundedSum]
  exact ofCoefficient_eq_error_iff (a.commonScale_le b)

/-- **Sums on 128 bits.**  A sum computed on 128 bits is the sum computed on integers of any size.
The coefficients at the common scale are added, which is the sum of the numbers, and the trailing
fraction zeros are dropped.  If what is left is within the bound of mantissas, it is the sum;
otherwise the sum fails, and how it fails depends on the scale that is left.

Where 128 bits are not enough, and that is where the checked steps fail, nothing that follows would
bring the sum back into range: the coefficients do not cancel, there are no zeros to drop, and so
the failure at the common scale is the one at the scale that is left. -/
theorem sum_agrees_with_unbounded (a b : Decimal) :
    a.sum b = a.unboundedSum b ∧
    (a.alignedSum b : ℚ) / 10 ^ a.commonScale b = a.toRat + b.toRat ∧
    (∀ c, a.sum b = .ok c ↔
      c.negative = decide (a.alignedSum b < 0) ∧ (c.mantissa, c.scale) = a.strippedSum b) ∧
    (∀ failure, a.sum b = .error failure ↔
      2 ^ 96 - 1 < (a.strippedSum b).1 ∧ failure = unrepresentable (a.strippedSum b).2) ∧
    (a.normalize.int128Sum? b.normalize (a.commonScale b) = none ↔ a.LeavesInt128 b) ∧
    (a.LeavesInt128 b →
      a.strippedSum b = ((a.alignedSum b).natAbs, a.commonScale b) ∧
        2 ^ 96 - 1 < (a.alignedSum b).natAbs ∧
        a.sum b = .error (unrepresentable (a.commonScale b))) := by
  rw [← maxMantissa_eq]
  refine ⟨sum_eq_unboundedSum a b, alignedSum_div a b, fun c => sum_eq_ok_iff,
    fun failure => sum_eq_error_iff, int128Sum?_eq_none_iff, fun h => ?_⟩
  obtain ⟨hstripped, hgreat⟩ := h.strippedSum_eq
  refine ⟨hstripped, hgreat, sum_eq_error_iff.2 ?_⟩
  rw [hstripped]
  exact ⟨hgreat, rfl⟩

/-- The greatest decimal, aligned to the scale of a negative one with 28 fraction digits, is no
integer of 128 bits, and their sum is inexact.  Twice the greatest decimal fits into 128 bits, but
is out of range. -/
theorem sum_agrees_with_unbounded_greatest :
    let greatest : Decimal := ⟨false, maxMantissa, 0, by decide, by decide⟩
    let fraction : Decimal := ⟨true, maxMantissa, 28, by decide, by decide⟩
    greatest.LeavesInt128 fraction ∧ greatest.sum fraction = .error .inexact ∧
      ¬ greatest.LeavesInt128 greatest ∧ greatest.sum greatest = .error .overflow := by
  intro greatest fraction
  obtain ⟨-, -, -, -, -, hleaves⟩ := sum_agrees_with_unbounded greatest fraction
  obtain ⟨-, -, -, herror, -⟩ := sum_agrees_with_unbounded greatest greatest
  have h : greatest.LeavesInt128 fraction := Or.inl (by decide +kernel)
  have hfits : ¬ greatest.LeavesInt128 greatest := by
    rintro (h | h | h) <;> exact h (by decide +kernel)
  have hinexact : unrepresentable (greatest.commonScale fraction) = .inexact := by decide +kernel
  exact ⟨h, hinexact ▸ (hleaves h).2.2, hfits, (herror .overflow).2 (by decide +kernel)⟩

end Decimal

end GuardedMachine
