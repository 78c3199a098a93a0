/-
# Decimals as rational numbers

Every decimal stands for a rational number, and the operations on decimals are judged by it:
comparison compares the numbers, and a sum, difference, product or quotient that is given is
the sum, difference, product or quotient of the numbers, never a rounded one.

For products this rests on `ten_pow_dvd_mul_iff`: the count of trailing zeros that `product`
takes from the factors of the two mantissas says which powers of ten divide their product.  A
rounded product has dropped more digits than that, and the test in `product` finds it out.
-/
import Mathlib.Data.Nat.Factorization.Basic
import Mathlib.Data.Nat.Cast.Field
import Mathlib.Data.Rat.Lemmas
import Mathlib.Tactic.FieldSimp
import Mathlib.Tactic.Linarith
import Mathlib.Tactic.NormNum
import Mathlib.Tactic.Positivity
import Mathlib.Tactic.Ring
import GuardedMachine.Decimal.Arithmetic

namespace GuardedMachine

namespace Decimal

/-- The number that a decimal stands for. -/
def toRat (d : Decimal) : ℚ := d.coefficient / 10 ^ d.scale

/-- The sign of a decimal as a factor. -/
def signFactor (negative : Bool) : ℚ := if negative then -1 else 1

lemma toRat_eq (d : Decimal) :
    d.toRat = signFactor d.negative * (d.mantissa / 10 ^ d.scale) := by
  rcases d with ⟨_ | _, m, s, hm, hs⟩ <;> simp [toRat, coefficient, signFactor, neg_div]

@[simp] lemma toRat_zero : zero.toRat = 0 := by simp [toRat, coefficient, zero]

lemma signFactor_not (negative : Bool) : signFactor (!negative) = -signFactor negative := by
  cases negative <;> simp [signFactor]

@[simp] lemma toRat_neg (d : Decimal) : (-d).toRat = -d.toRat := by
  have hneg : -d = ⟨!d.negative, d.mantissa, d.scale, d.mantissa_le, d.scale_le⟩ := rfl
  rw [toRat_eq, toRat_eq, hneg, signFactor_not, neg_mul]

lemma signFactor_ne_zero (negative : Bool) : signFactor negative ≠ 0 := by
  cases negative <;> norm_num [signFactor]

lemma signFactor_bne (a b : Bool) : signFactor (a != b) = signFactor a * signFactor b := by
  cases a <;> cases b <;> simp [signFactor]

/-- The sign of a zero does not matter. -/
lemma signFactor_and_mul (negative : Bool) (m : Nat) :
    signFactor (negative && m != 0) * m = signFactor negative * m := by
  by_cases hm : m = 0
  · simp [hm]
  · rw [bne_iff_ne.2 hm, Bool.and_true]

lemma toRat_eq_zero_iff {d : Decimal} : d.toRat = 0 ↔ d.mantissa = 0 := by
  have hpow : (10 : ℚ) ^ d.scale ≠ 0 := by positivity
  simp [toRat_eq, signFactor_ne_zero, hpow]

/-! ## Comparison -/

section Comparison

variable (a b : Decimal)

lemma sameNumber_iff : a.sameNumber b = true ↔ a.toRat = b.toRat := by
  have ha : (10 : ℚ) ^ a.scale ≠ 0 := by positivity
  have hb : (10 : ℚ) ^ b.scale ≠ 0 := by positivity
  rw [toRat, toRat, div_eq_div_iff ha hb]
  simp only [sameNumber, overCommonScale, Nat.pow_eq, beq_iff_eq]
  norm_cast

lemma less_iff : a.less b = true ↔ a.toRat < b.toRat := by
  have ha : (0 : ℚ) < 10 ^ a.scale := by positivity
  have hb : (0 : ℚ) < 10 ^ b.scale := by positivity
  rw [toRat, toRat, div_lt_div_iff₀ ha hb]
  refine Iff.trans decide_eq_true_iff ?_
  norm_cast

lemma atMost_iff : a.atMost b = true ↔ a.toRat ≤ b.toRat := by
  have ha : (0 : ℚ) < 10 ^ a.scale := by positivity
  have hb : (0 : ℚ) < 10 ^ b.scale := by positivity
  rw [toRat, toRat, div_le_div_iff₀ ha hb]
  refine Iff.trans decide_eq_true_iff ?_
  norm_cast

end Comparison

/-! ## Numbers put together from their parts -/

lemma parts_of_ofParts? {negative : Bool} {mantissa scale : Nat} {d : Decimal}
    (h : ofParts? negative mantissa scale = some d) :
    d.negative = negative ∧ d.mantissa = mantissa ∧ d.scale = scale := by
  rw [ofParts?] at h
  split at h
  · cases h
    exact ⟨rfl, rfl, rfl⟩
  · cases h

lemma toRat_of_ofParts? {negative : Bool} {mantissa scale : Nat} {d : Decimal}
    (h : ofParts? negative mantissa scale = some d) :
    d.toRat = signFactor negative * (mantissa / 10 ^ scale) := by
  obtain ⟨hn, hm, hs⟩ := parts_of_ofParts? h
  rw [toRat_eq, hn, hm, hs]

/-- Dropping trailing zeros keeps the number. -/
lemma stripZeros_div (mantissa scale : Nat) :
    ((stripZeros mantissa scale).1 : ℚ) / 10 ^ (stripZeros mantissa scale).2
      = mantissa / 10 ^ scale := by
  have hscale : (10 : ℚ) ^ scale ≠ 0 := by positivity
  have hstripped : (10 : ℚ) ^ (stripZeros mantissa scale).2 ≠ 0 := by positivity
  rw [div_eq_div_iff hstripped hscale]
  exact_mod_cast stripZeros_value mantissa scale

/-- The smallest scale holds the same number. -/
@[simp] lemma toRat_normalize (d : Decimal) : d.normalize.toRat = d.toRat := by
  have hparts : d.normalize.toRat = signFactor (d.negative && d.mantissa != 0)
      * ((stripZeros d.mantissa d.scale).1 / 10 ^ (stripZeros d.mantissa d.scale).2) :=
    toRat_eq _
  rw [hparts, stripZeros_div, toRat_eq, ← mul_div_assoc, signFactor_and_mul, mul_div_assoc]

/-! ## Sums -/

lemma toRat_of_ofCoefficient {coefficient : Int} {scale : Nat} {d : Decimal}
    (h : ofCoefficient coefficient scale = .ok d) :
    d.toRat = coefficient / 10 ^ scale := by
  simp only [ofCoefficient] at h
  split at h
  · rename_i d' hparts
    obtain rfl := Except.ok.inj h
    rw [toRat_of_ofParts? hparts, stripZeros_div, ← mul_div_assoc]
    congr 1
    by_cases hneg : coefficient < 0
    · simp [signFactor, hneg, Nat.cast_natAbs, abs_of_neg hneg]
    · simp [signFactor, hneg, Nat.cast_natAbs, abs_of_nonneg (not_lt.1 hneg)]
  · cases h

lemma eq_of_int128? {n k : Int} (h : int128? n = some k) : k = n := by
  cases n <;>
  · simp only [int128?] at h
    split at h
    · exact (Option.some.inj h).symm
    · cases h

/-- The coefficient of a decimal at a scale not smaller than its own. -/
def coefficientAt (d : Decimal) (scale : ℕ) : ℤ := d.coefficient * 10 ^ (scale - d.scale)

lemma coefficient_mul_natCast (d : Decimal) (scale : ℕ) :
    d.coefficient * ((10 ^ (scale - d.scale) : ℕ) : ℤ) = d.coefficientAt scale := by
  rw [coefficientAt, Nat.cast_pow]
  rfl

lemma eq_of_aligned? {d : Decimal} {scale : ℕ} {n : ℤ} (h : d.aligned? scale = some n) :
    n = d.coefficientAt scale := by
  simp only [aligned?, Nat.pow_eq, Option.bind_eq_bind, Option.bind_eq_some_iff] at h
  obtain ⟨factor, hfactor, hn⟩ := h
  rw [eq_of_int128? hn, eq_of_int128? hfactor, coefficient_mul_natCast]

/-- Aligning to a greater scale keeps the number. -/
lemma coefficientAt_div {d : Decimal} {scale : ℕ} (h : d.scale ≤ scale) :
    (d.coefficientAt scale : ℚ) / 10 ^ scale = d.toRat := by
  have hsplit : (10 : ℚ) ^ scale = 10 ^ d.scale * 10 ^ (scale - d.scale) := by
    rw [← pow_add, Nat.add_sub_cancel' h]
  have hpow : (10 : ℚ) ^ (scale - d.scale) ≠ 0 := by positivity
  rw [coefficientAt, toRat, hsplit]
  push_cast
  rw [mul_div_mul_right _ _ hpow]

/-- A sum is the sum of the numbers. -/
lemma toRat_of_sum {a b c : Decimal} (h : a.sum b = .ok c) : c.toRat = a.toRat + b.toRat := by
  simp only [sum] at h
  split at h
  · rename_i total htotal
    simp only [Option.bind_eq_bind, Option.bind_eq_some_iff] at htotal
    obtain ⟨x, hx, y, hy, htotal⟩ := htotal
    rw [toRat_of_ofCoefficient h, eq_of_int128? htotal, eq_of_aligned? hx, eq_of_aligned? hy,
      Int.cast_add, add_div, coefficientAt_div (le_max_left _ _),
      coefficientAt_div (le_max_right _ _), toRat_normalize, toRat_normalize]
  · cases h

/-- A difference is the difference of the numbers. -/
lemma toRat_of_difference {a b c : Decimal} (h : a.difference b = .ok c) :
    c.toRat = a.toRat - b.toRat := by
  rw [toRat_of_sum h, toRat_neg, sub_eq_add_neg]

lemma unrepresentable_ne_divisionByZero (scale : Nat) :
    unrepresentable scale ≠ .divisionByZero := by
  rw [unrepresentable]
  split <;> simp

lemma sum_ne_divisionByZero (a b : Decimal) : a.sum b ≠ .error .divisionByZero := by
  intro h
  simp only [sum] at h
  split at h
  · simp only [ofCoefficient] at h
    split at h
    · cases h
    · exact unrepresentable_ne_divisionByZero _ (Except.error.inj h)
  · exact unrepresentable_ne_divisionByZero _ (Except.error.inj h)

/-! ## Products -/

/-- Counting how often a prime divides a number gives its exponent in the factorization. -/
lemma factorCount_eq_factorization {p : Nat} (hp : p.Prime) (n : Nat) :
    factorCount p n = n.factorization p := by
  induction n using Nat.strong_induction_on with
  | _ n ih =>
    rw [factorCount]
    split
    · -- the count goes down by one with each factor taken out, and so does the exponent
      rename_i h
      have hdvd : p ∣ n := Nat.dvd_of_mod_eq_zero h.2.2
      rw [ih (n / p) (Nat.div_lt_self h.2.1 h.1), Nat.factorization_div hdvd,
        Finsupp.tsub_apply, hp.factorization_self]
      have hpos : 0 < n.factorization p := hp.factorization_pos_of_dvd h.2.1.ne' hdvd
      omega
    · rename_i h
      rcases n.eq_zero_or_pos with rfl | hn
      · simp
      · refine (Nat.factorization_eq_zero_of_not_dvd fun hdvd => h ?_).symm
        exact ⟨hp.one_lt, hn, Nat.mod_eq_zero_of_dvd hdvd⟩

lemma pow_dvd_mul_iff {p m n : Nat} (hp : p.Prime) (hm : m ≠ 0) (hn : n ≠ 0) (k : Nat) :
    p ^ k ∣ m * n ↔ k ≤ factorCount p m + factorCount p n := by
  rw [hp.pow_dvd_iff_le_factorization (mul_ne_zero hm hn), Nat.factorization_mul hm hn,
    Finsupp.add_apply, factorCount_eq_factorization hp, factorCount_eq_factorization hp]

/-- The powers of ten that divide a product are those up to its count of trailing zeros. -/
lemma ten_pow_dvd_mul_iff {m n : Nat} (hm : m ≠ 0) (hn : n ≠ 0) (k : Nat) :
    10 ^ k ∣ m * n ↔ k ≤ trailingZeros m n := by
  have hsplit : 10 ^ k = 2 ^ k * 5 ^ k := Nat.mul_pow 2 5 k
  have hcoprime : Nat.Coprime (2 ^ k) (5 ^ k) := Nat.Coprime.pow k k (by decide)
  rw [trailingZeros, le_min_iff, ← pow_dvd_mul_iff Nat.prime_two hm hn,
    ← pow_dvd_mul_iff Nat.prime_five hm hn, hsplit]
  exact ⟨fun h => ⟨dvd_of_mul_right_dvd h, dvd_of_mul_left_dvd h⟩,
    fun h => hcoprime.mul_dvd_of_dvd_of_dvd h.1 h.2⟩

lemma fittingScale?_le {m s scale k : Nat} (h : fittingScale? m s scale = some k) : k ≤ scale := by
  induction scale with
  | zero =>
    simp only [fittingScale?, Option.ite_none_right_eq_some, Option.some.injEq] at h
    exact h.2.ge
  | succ scale ih =>
    rw [fittingScale?] at h
    split at h
    · exact (Option.some.inj h).ge
    · exact (ih h).trans (Nat.le_succ scale)

/-- A rounded number has the sign asked for and the nearest mantissa at its scale. -/
lemma parts_of_rounded? {negative : Bool} {m s : Nat} {d : Decimal}
    (h : rounded? negative m s = some d) :
    d.negative = negative ∧ d.scale ≤ s ∧
      d.mantissa = Ratio.nearest ⟨m, 10 ^ (s - d.scale)⟩ := by
  have of_parts {scale : Nat} (hscale : scale ≤ s)
      (h : ofParts? negative (Ratio.nearest ⟨m, 10 ^ (s - scale)⟩) scale = some d) :
      d.negative = negative ∧ d.scale ≤ s ∧
        d.mantissa = Ratio.nearest ⟨m, 10 ^ (s - d.scale)⟩ := by
    obtain ⟨hn, hm, rfl⟩ := parts_of_ofParts? h
    exact ⟨hn, hscale, hm⟩
  simp only [rounded?, Nat.pow_eq, Option.bind_eq_bind, Option.bind_eq_some_iff] at h
  obtain ⟨scale, hfitting, h⟩ := h
  have hscale : scale ≤ s := (fittingScale?_le hfitting).trans (min_le_left _ _)
  split at h
  · rename_i hparts
    obtain rfl := Option.some.inj h
    exact of_parts hscale hparts
  · exact of_parts (by omega) h
  · cases h

/-- A rounded product that dropped trailing zeros only is the product of the numbers. -/
lemma toRat_of_roundedProduct? {a b p : Decimal} (h : roundedProduct? a b = some p)
    (hdvd : 10 ^ (a.scale + b.scale - p.scale) ∣ a.mantissa * b.mantissa) :
    p.toRat = a.toRat * b.toRat := by
  obtain ⟨hnegative, hscale, hmantissa⟩ := parts_of_rounded? h
  rw [Ratio.nearest_eq_of_mod_eq_zero (by positivity) (Nat.mod_eq_zero_of_dvd hdvd),
    Ratio.floor] at hmantissa
  have hsplit : (10 : ℚ) ^ (a.scale + b.scale - p.scale) * 10 ^ p.scale
      = 10 ^ a.scale * 10 ^ b.scale := by
    rw [← pow_add, ← pow_add, Nat.sub_add_cancel hscale]
  have hquotient : ((a.mantissa * b.mantissa / 10 ^ (a.scale + b.scale - p.scale) : Nat) : ℚ)
      = a.mantissa * b.mantissa / 10 ^ (a.scale + b.scale - p.scale) := by
    rw [Nat.cast_div hdvd (by positivity)]
    push_cast
    rfl
  rw [toRat_eq, toRat_eq, toRat_eq, hnegative, hmantissa, signFactor_bne, hquotient, div_div,
    hsplit]
  ring

/-- A product is the product of the numbers. -/
lemma toRat_of_product {a b p : Decimal} (h : a.product b = .ok p) :
    p.toRat = a.toRat * b.toRat := by
  rw [← toRat_normalize a, ← toRat_normalize b]
  simp only [product] at h
  split at h
  · rename_i hzero
    obtain rfl := Except.ok.inj h
    rw [Bool.or_eq_true, isZero, isZero, beq_iff_eq, beq_iff_eq] at hzero
    rcases hzero with hzero | hzero
    · rw [toRat_zero, toRat_eq_zero_iff.2 hzero, zero_mul]
    · rw [toRat_zero, toRat_eq_zero_iff.2 hzero, mul_zero]
  · rename_i hzero
    split at h
    · cases h
    · rename_i p' hp
      split at h
      · cases h
      · rename_i htest
        obtain rfl := Except.ok.inj h
        rw [Bool.or_eq_true, isZero, isZero, beq_iff_eq, beq_iff_eq, not_or] at hzero
        refine toRat_of_roundedProduct? hp ((ten_pow_dvd_mul_iff hzero.1 hzero.2 _).2 ?_)
        -- the test bounds the dropped digits, since the smallest scale is at most the scale
        have hsmallest : p'.normalize.scale ≤ p'.scale := stripZeros_snd_le _ _
        omega

/-- The square of the least positive decimal is no decimal, and it is not rounded to zero. -/
example : product ⟨false, 1, 28, by decide, by decide⟩ ⟨false, 1, 28, by decide, by decide⟩
    = .error .inexact := by decide +kernel

lemma product_ne_divisionByZero (a b : Decimal) : a.product b ≠ .error .divisionByZero := by
  intro h
  simp only [product] at h
  split at h
  · cases h
  · split at h
    · cases h
    · split at h <;> cases h

/-! ## Quotients -/

lemma isZero_iff {d : Decimal} : d.isZero = true ↔ d.toRat = 0 := by
  rw [toRat_eq_zero_iff, isZero, beq_iff_eq]

section Quotients

variable {divide : Decimal → Decimal → Option Decimal} {a b q : Decimal}

/-- What multiplies back to the dividend is the quotient, since products are exact. -/
lemma toRat_mul_of_multipliesBack (h : multipliesBack q a b = true) :
    q.toRat * b.toRat = a.toRat := by
  rw [multipliesBack] at h
  split at h
  · rename_i back hback
    rw [← toRat_of_product hback, (sameNumber_iff back a).1 h]
  · cases h

/-- A quotient that is kept is the quotient of the numbers, whatever division it is from. -/
lemma toRat_of_quotientBy (h : quotientBy divide a b = .ok q) :
    q.toRat = a.toRat / b.toRat := by
  rw [quotientBy] at h
  split at h
  · cases h
  · rename_i hzero
    split at h
    · cases h
    · split at h
      · rename_i hback
        obtain rfl := Except.ok.inj h
        exact (eq_div_iff (mt isZero_iff.2 hzero)).2 (toRat_mul_of_multipliesBack hback)
      · cases h

lemma quotientBy_divisionByZero_iff :
    quotientBy divide a b = .error .divisionByZero ↔ b.toRat = 0 := by
  by_cases hb : b.toRat = 0
  · rw [quotientBy, if_pos (isZero_iff.2 hb)]
    exact iff_of_true rfl hb
  rw [quotientBy, if_neg (mt isZero_iff.1 hb)]
  refine iff_of_false ?_ hb
  rcases divide a b with _ | q
  · simp
  · dsimp only
    split <;> simp

end Quotients

end Decimal

end GuardedMachine
