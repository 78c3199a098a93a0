/-
# Numbers that decimals hold

A number is representable if some decimal stands for it.  Then it is the number of exactly one
decimal in the smallest scale, and every way to write it as a fraction of a power of ten comes
down to that one when trailing zeros are dropped.  So an operation that looks for the smallest
scale of its result finds it within the bounds if the result is representable at all.

* Sums are computed on 128 bits, but no sum is lost by that: if one operand has more fraction
  digits than the other, the last digit of the sum is not zero, and a sum that does not fit into
  128 bits has no decimal (`sum_eq_unboundedSum`).
* The scale at which the mantissa of a product fits is never below the smallest scale of the
  product, so nothing is rounded away if the product is representable.
-/
import GuardedMachine.Proofs.Decimal.SameNumber

namespace GuardedMachine

namespace Decimal

/-- A number is an integer of 96 bits, apart from its sign, divided by ten to the power of at
most 28. -/
def Representable (x : ℚ) : Prop :=
  ∃ (m : ℤ) (s : ℕ), m.natAbs ≤ 2 ^ 96 - 1 ∧ s ≤ 28 ∧ x = m / 10 ^ s

lemma maxMantissa_eq : maxMantissa = 2 ^ 96 - 1 := by decide

lemma natAbs_coefficient (d : Decimal) : d.coefficient.natAbs = d.mantissa := by
  rcases d with ⟨_ | _, m, s, hm, hs⟩ <;> simp [coefficient]

lemma representable_toRat (d : Decimal) : Representable d.toRat := by
  refine ⟨d.coefficient, d.scale, ?_, d.scale_le, rfl⟩
  rw [natAbs_coefficient, ← maxMantissa_eq]
  exact d.mantissa_le

/-- An integer within the bound is the coefficient of a decimal. -/
lemma exists_toRat_eq {m : ℤ} {s : ℕ} (hm : m.natAbs ≤ maxMantissa) (hs : s ≤ maxScale) :
    ∃ d : Decimal, d.toRat = m / 10 ^ s := by
  refine ⟨⟨decide (m < 0), m.natAbs, s, hm, hs⟩, ?_⟩
  rw [toRat]
  congr 2
  by_cases hneg : m < 0
  · simp only [coefficient, hneg, decide_true, if_true]
    omega
  · simp only [coefficient, hneg, decide_false, Bool.false_eq_true, if_false]
    omega

/-- What is representable is the number of a decimal in its smallest scale. -/
lemma exists_of_representable {x : ℚ} (h : Representable x) :
    ∃ d : Decimal, d.toRat = x ∧ d.normalize = d := by
  obtain ⟨m, s, hm, hs, rfl⟩ := h
  rw [← maxMantissa_eq] at hm
  obtain ⟨d, hd⟩ := exists_toRat_eq hm hs
  exact ⟨d.normalize, by rw [toRat_normalize, hd], normalize_eq_iff.2 (toRat_normalize d)⟩

/-- A decimal has no fraction, or the last digit of its fraction is not zero. -/
def Reduced (d : Decimal) : Prop := d.scale = 0 ∨ d.mantissa % 10 ≠ 0

lemma reduced_normalize (d : Decimal) : d.normalize.Reduced :=
  stripZeros_reduced d.mantissa d.scale

lemma reduced_of_normalize_eq {d : Decimal} (h : d.normalize = d) : d.Reduced :=
  h ▸ d.reduced_normalize

lemma abs_int_div_pow (n : ℤ) (s : ℕ) : |(n : ℚ) / 10 ^ s| = n.natAbs / 10 ^ s := by
  rw [abs_div, Nat.cast_natAbs, abs_of_pos (by positivity : (0 : ℚ) < 10 ^ s), Int.cast_abs]

/-- The product of two decimals as a fraction. -/
lemma toRat_mul_toRat (a b : Decimal) : a.toRat * b.toRat
    = (a.coefficient * b.coefficient : ℤ) / 10 ^ (a.scale + b.scale) := by
  rw [toRat, toRat, div_mul_div_comm, pow_add]
  push_cast
  rfl

lemma abs_toRat_mul_toRat (a b : Decimal) :
    |a.toRat * b.toRat| = (a.mantissa * b.mantissa : ℕ) / 10 ^ (a.scale + b.scale) := by
  rw [toRat_mul_toRat, abs_int_div_pow, Int.natAbs_mul, natAbs_coefficient, natAbs_coefficient]

/-- Equal magnitudes, without the fractions. -/
lemma mantissa_mul_eq_of_abs {d : Decimal} {m s : ℕ} (h : |d.toRat| = m / 10 ^ s) :
    d.mantissa * 10 ^ s = m * 10 ^ d.scale := by
  rw [abs_toRat, div_eq_div_iff (by positivity) (by positivity)] at h
  exact_mod_cast h

/-- A decimal whose last fraction digit is not zero is in its smallest scale. -/
lemma Reduced.scale_le {d : Decimal} (h : d.Reduced) {n : ℤ} {s : ℕ}
    (hd : d.toRat = n / 10 ^ s) : d.scale ≤ s := by
  have habs : |d.toRat| = n.natAbs / 10 ^ s := by rw [hd, abs_int_div_pow]
  exact scale_le_of_reduced h (mantissa_mul_eq_of_abs habs).symm

/-! ## Sums -/

lemma int128?_of_natAbs_lt {n : ℤ} (h : n.natAbs < 2 ^ 127) : int128? n = some n := by
  rcases n with n | n
  · exact if_pos h
  · exact if_pos (Nat.lt_of_succ_lt h)

/-- Digits that are not zero at the end are all kept. -/
lemma stripZeros_of_mod_ne_zero {m : ℕ} (h : m % 10 ≠ 0) (s : ℕ) : stripZeros m s = (m, s) := by
  cases s with
  | zero => rfl
  | succ s => rw [stripZeros, if_neg h]

/-- A coefficient at a scale gives a decimal exactly when the number is representable. -/
lemma ofCoefficient_ok_iff {n : ℤ} {s : ℕ} :
    (∃ c, ofCoefficient n s = .ok c) ↔ Representable (n / 10 ^ s) := by
  constructor
  · rintro ⟨c, hc⟩
    rw [← toRat_of_ofCoefficient hc]
    exact representable_toRat c
  · intro h
    obtain ⟨d, hd, -⟩ := exists_of_representable h
    have habs : |d.toRat| = n.natAbs / 10 ^ s := by rw [hd, abs_int_div_pow]
    have hstripped : stripZeros n.natAbs s = stripZeros d.mantissa d.scale :=
      stripZeros_eq_of_mul_eq (mantissa_mul_eq_of_abs habs).symm
    have hfits : (stripZeros d.mantissa d.scale).1 ≤ maxMantissa ∧
        (stripZeros d.mantissa d.scale).2 ≤ maxScale :=
      ⟨(stripZeros_fst_le _ _).trans d.mantissa_le, (stripZeros_snd_le _ _).trans d.scale_le⟩
    rw [ofCoefficient, hstripped, ofParts?, dif_pos hfits]
    exact ⟨_, rfl⟩

/-- A coefficient whose last digit is not zero stays as it is, and fails if it is too great. -/
lemma ofCoefficient_of_mod_ne_zero {n : ℤ} (hdigit : n.natAbs % 10 ≠ 0)
    (hgreat : maxMantissa < n.natAbs) (s : ℕ) :
    ofCoefficient n s = .error (unrepresentable s) := by
  have hnone : ofParts? (decide (n < 0)) n.natAbs s = none :=
    dif_neg fun h => absurd h.1 (not_le.2 hgreat)
  rw [ofCoefficient, stripZeros_of_mod_ne_zero hdigit, hnone]

/-- The exact sum, computed on integers of any size. -/
def unboundedSum (a b : Decimal) : Except Failure Decimal :=
  let a := a.normalize
  let b := b.normalize
  let scale := max a.scale b.scale
  ofCoefficient (a.coefficientAt scale + b.coefficientAt scale) scale

section Aligned

variable (a b : Decimal)

/-- The greater one of the smallest scales of two decimals. -/
def commonScale : ℕ := max a.normalize.scale b.normalize.scale

/-- The sum of the coefficients of two decimals at their common scale. -/
def alignedSum : ℤ :=
  a.normalize.coefficientAt (a.commonScale b) + b.normalize.coefficientAt (a.commonScale b)

lemma commonScale_le : a.commonScale b ≤ maxScale :=
  max_le a.normalize.scale_le b.normalize.scale_le

lemma unboundedSum_eq : a.unboundedSum b = ofCoefficient (a.alignedSum b) (a.commonScale b) := rfl

/-- The coefficients are added for the numbers. -/
lemma alignedSum_div : (a.alignedSum b : ℚ) / 10 ^ a.commonScale b = a.toRat + b.toRat := by
  have hleft : a.normalize.scale ≤ a.commonScale b := le_max_left _ _
  have hright : b.normalize.scale ≤ a.commonScale b := le_max_right _ _
  rw [alignedSum, Int.cast_add, add_div, coefficientAt_div hleft, coefficientAt_div hright,
    toRat_normalize, toRat_normalize]

end Aligned

section Sum

variable {a b d : Decimal} {scale : ℕ}

lemma natAbs_coefficientAt (d : Decimal) (scale : ℕ) :
    (d.coefficientAt scale).natAbs = d.mantissa * 10 ^ (scale - d.scale) := by
  rw [coefficientAt, Int.natAbs_mul, natAbs_coefficient, Int.natAbs_pow]
  rfl

lemma natAbs_coefficientAt_self (d : Decimal) : (d.coefficientAt d.scale).natAbs = d.mantissa := by
  rw [natAbs_coefficientAt, Nat.sub_self, pow_zero, mul_one]

/-- The power of ten that aligns a coefficient fits into 128 bits, so it is only the aligned
coefficient that may not. -/
lemma aligned?_eq (hscale : scale ≤ maxScale) :
    d.aligned? scale = int128? (d.coefficientAt scale) := by
  have hfactor : ((10 ^ (scale - d.scale) : ℕ) : ℤ).natAbs < 2 ^ 127 := by
    rw [Int.natAbs_natCast]
    calc 10 ^ (scale - d.scale) ≤ 10 ^ 28 :=
          Nat.pow_le_pow_right (by decide) ((Nat.sub_le _ _).trans hscale)
      _ < 2 ^ 127 := by norm_num
  simp only [aligned?, Nat.pow_eq, Option.bind_eq_bind, int128?_of_natAbs_lt hfactor,
    Option.bind_some, coefficient_mul_natCast]

/-- The sum of the coefficients of two decimals at a scale, computed on 128 bits. -/
def int128Sum? (a b : Decimal) (scale : ℕ) : Option ℤ := do
  let x ← a.aligned? scale
  let y ← b.aligned? scale
  int128? (x + y)

lemma eq_of_int128Sum? {total : ℤ} (h : a.int128Sum? b scale = some total) :
    total = a.coefficientAt scale + b.coefficientAt scale := by
  simp only [int128Sum?, Option.bind_eq_bind, Option.bind_eq_some_iff] at h
  obtain ⟨x, hx, y, hy, htotal⟩ := h
  rw [eq_of_int128? htotal, eq_of_aligned? hx, eq_of_aligned? hy]

/-- When one operand has more fraction digits than the other, the sum ends with its last digit. -/
lemma mod_ne_zero_of_scale_lt (h : a.scale < b.scale) (hb : b.Reduced) :
    (a.coefficientAt b.scale + b.coefficientAt b.scale).natAbs % 10 ≠ 0 := by
  have hdigit : b.mantissa % 10 ≠ 0 := Or.resolve_left hb (Nat.ne_of_gt (Nat.zero_lt_of_lt h))
  have hzeros : (10 : ℤ) ∣ a.coefficientAt b.scale :=
    Dvd.dvd.mul_left (dvd_pow_self 10 (Nat.sub_ne_zero_of_lt h)) _
  intro hmod
  have hsum : (10 : ℤ) ∣ a.coefficientAt b.scale + b.coefficientAt b.scale :=
    Int.natAbs_dvd_natAbs.1 (Nat.dvd_of_mod_eq_zero hmod)
  have hlast : (10 : ℤ) ∣ b.coefficientAt b.scale := (dvd_add_right hzeros).1 hsum
  have hmantissa : 10 ∣ b.mantissa := by
    rw [← natAbs_coefficientAt_self b]
    exact Int.natAbs_dvd_natAbs.2 hlast
  exact hdigit (Nat.mod_eq_zero_of_dvd hmantissa)

/-- At the greater scale of two decimals in their smallest scales, both coefficients are
mantissas; or else one is, and the last digit of their sum is not zero. -/
lemma coefficientAt_max_cases (ha : a.Reduced) (hb : b.Reduced) :
    let x := a.coefficientAt (max a.scale b.scale)
    let y := b.coefficientAt (max a.scale b.scale)
    (x.natAbs ≤ maxMantissa ∧ y.natAbs ≤ maxMantissa) ∨
      ((x + y).natAbs % 10 ≠ 0 ∧ (x.natAbs ≤ maxMantissa ∨ y.natAbs ≤ maxMantissa)) := by
  have hself (d : Decimal) : (d.coefficientAt d.scale).natAbs ≤ maxMantissa := by
    rw [natAbs_coefficientAt_self]
    exact d.mantissa_le
  rcases lt_trichotomy a.scale b.scale with h | h | h
  · rw [max_eq_right h.le]
    exact Or.inr ⟨mod_ne_zero_of_scale_lt h hb, Or.inr (hself b)⟩
  · rw [h, max_self, ← h]
    exact Or.inl ⟨hself a, h ▸ hself b⟩
  · rw [max_eq_left h.le]
    refine Or.inr ⟨?_, Or.inl (hself a)⟩
    rw [add_comm]
    exact mod_ne_zero_of_scale_lt h ha

/-- Coefficients not above twice the greatest mantissa are added without leaving 128 bits. -/
lemma int128Sum?_eq_some (hscale : scale ≤ maxScale)
    (ha : (a.coefficientAt scale).natAbs ≤ 2 * maxMantissa)
    (hb : (b.coefficientAt scale).natAbs ≤ 2 * maxMantissa) :
    a.int128Sum? b scale = some (a.coefficientAt scale + b.coefficientAt scale) := by
  have hsum : (a.coefficientAt scale + b.coefficientAt scale).natAbs < 2 ^ 127 :=
    calc (a.coefficientAt scale + b.coefficientAt scale).natAbs ≤ 4 * maxMantissa := by omega
      _ < 2 ^ 127 := by decide
  rw [int128Sum?, aligned?_eq hscale, aligned?_eq hscale,
    int128?_of_natAbs_lt (ha.trans_lt (by decide)), int128?_of_natAbs_lt (hb.trans_lt (by decide))]
  exact int128?_of_natAbs_lt hsum

/-- If 128 bits are not enough, one coefficient is so great that the sum is no decimal, and the last
digit of the sum is not zero. -/
lemma great_of_int128Sum?_eq_none (ha : a.Reduced) (hb : b.Reduced)
    (hscale : scale = max a.scale b.scale) (h : a.int128Sum? b scale = none) :
    (a.coefficientAt scale + b.coefficientAt scale).natAbs % 10 ≠ 0 ∧
      maxMantissa < (a.coefficientAt scale + b.coefficientAt scale).natAbs := by
  have hcases := coefficientAt_max_cases ha hb
  have hbound : scale ≤ maxScale := hscale ▸ max_le a.scale_le b.scale_le
  rw [← hscale] at hcases
  have hgreat : ¬ ((a.coefficientAt scale).natAbs ≤ 2 * maxMantissa ∧
      (b.coefficientAt scale).natAbs ≤ 2 * maxMantissa) := by
    rintro ⟨hx, hy⟩
    cases h.symm.trans (int128Sum?_eq_some hbound hx hy)
  rcases hcases with hboth | ⟨hdigit, hone⟩
  · exact absurd ⟨by omega, by omega⟩ hgreat
  · exact ⟨hdigit, by omega⟩

/-- No sum is lost by computing on 128 bits. -/
lemma sum_eq_unboundedSum (a b : Decimal) : a.sum b = a.unboundedSum b := by
  simp only [sum, unboundedSum]
  split
  · rename_i total htotal
    rw [eq_of_int128Sum? htotal]
  · rename_i hnone
    obtain ⟨hdigit, hgreat⟩ :=
      great_of_int128Sum?_eq_none a.reduced_normalize b.reduced_normalize rfl hnone
    exact (ofCoefficient_of_mod_ne_zero hdigit hgreat _).symm

lemma sum_ok_iff (a b : Decimal) : (∃ c, a.sum b = .ok c) ↔ Representable (a.toRat + b.toRat) := by
  rw [sum_eq_unboundedSum, unboundedSum_eq, ofCoefficient_ok_iff, alignedSum_div]

lemma difference_ok_iff (a b : Decimal) :
    (∃ c, a.difference b = .ok c) ↔ Representable (a.toRat - b.toRat) := by
  rw [difference, sum_ok_iff, toRat_neg, sub_eq_add_neg]

end Sum

/-! ## Products -/

/-- The greatest scale at which a mantissa fits is at least every scale at which it does. -/
lemma exists_fittingScale? {m s scale k : ℕ} (hk : k ≤ scale)
    (hfits : m / 10 ^ (s - k) ≤ maxMantissa) :
    ∃ j, fittingScale? m s scale = some j ∧ k ≤ j ∧ m / 10 ^ (s - j) ≤ maxMantissa := by
  induction scale with
  | zero =>
    obtain rfl := Nat.le_zero.1 hk
    exact ⟨0, if_pos hfits, le_rfl, hfits⟩
  | succ scale ih =>
    rw [fittingScale?, Nat.pow_eq]
    split
    · rename_i hnext
      exact ⟨scale + 1, rfl, hk, hnext⟩
    · rename_i hnext
      rcases Nat.le_succ_iff.1 hk with hle | rfl
      · exact ih hle
      · exact absurd hfits hnext

/-- Rounding a number that has a mantissa within the bound drops none of its digits. -/
lemma exists_rounded? {m s k : ℕ} (negative : Bool) (hk : k ≤ min s maxScale)
    (hdvd : 10 ^ (s - k) ∣ m) (hfits : m / 10 ^ (s - k) ≤ maxMantissa) :
    ∃ p, rounded? negative m s = some p ∧ 10 ^ (s - p.scale) ∣ m := by
  obtain ⟨j, hj, hkj, hfitsj⟩ := exists_fittingScale? hk hfits
  have hjs : j ≤ min s maxScale := fittingScale?_le hj
  have hdvdj : 10 ^ (s - j) ∣ m := (pow_dvd_pow 10 (by omega)).trans hdvd
  have hnearest : Ratio.nearest ⟨m, 10 ^ (s - j)⟩ = m / 10 ^ (s - j) :=
    Ratio.nearest_eq_of_mod_eq_zero (by positivity) (Nat.mod_eq_zero_of_dvd hdvdj)
  let p : Decimal := ⟨negative, m / 10 ^ (s - j), j, hfitsj, hjs.trans (min_le_right _ _)⟩
  have hparts : ofParts? negative (Ratio.nearest ⟨m, 10 ^ (s - j)⟩) j = some p := by
    rw [hnearest]
    exact dif_pos ⟨hfitsj, hjs.trans (min_le_right _ _)⟩
  refine ⟨p, ?_, hdvdj⟩
  simp only [rounded?, Nat.pow_eq, hj, hparts, Option.bind_eq_bind, Option.bind_some]

/-- A product of mantissas that is representable is the mantissa of a decimal in its smallest
scale, followed by zeros. -/
lemma exists_mantissa_mul_eq {a b : Decimal} (h : Representable (a.toRat * b.toRat)) :
    ∃ d : Decimal, d.toRat = a.toRat * b.toRat ∧ d.normalize = d ∧ d.scale ≤ a.scale + b.scale ∧
      a.mantissa * b.mantissa = d.mantissa * 10 ^ (a.scale + b.scale - d.scale) := by
  obtain ⟨d, hd, hnormal⟩ := exists_of_representable h
  have habs : |d.toRat| = (a.mantissa * b.mantissa : ℕ) / 10 ^ (a.scale + b.scale) := by
    rw [hd, abs_toRat_mul_toRat]
  have hmul := mantissa_mul_eq_of_abs habs
  have hscale : d.scale ≤ a.scale + b.scale :=
    scale_le_of_reduced (reduced_of_normalize_eq hnormal) hmul.symm
  refine ⟨d, hd, hnormal, hscale, ?_⟩
  refine Nat.eq_of_mul_eq_mul_right (by positivity : 0 < 10 ^ d.scale) ?_
  rw [← hmul, mul_assoc, ← pow_add, Nat.sub_add_cancel hscale]

lemma product_ok_iff (a b : Decimal) :
    (∃ c, a.product b = .ok c) ↔ Representable (a.toRat * b.toRat) := by
  constructor
  · rintro ⟨c, hc⟩
    rw [← toRat_of_product hc]
    exact representable_toRat c
  · rw [← toRat_normalize a, ← toRat_normalize b]
    intro h
    simp only [product]
    generalize a.normalize = a' at h ⊢
    generalize b.normalize = b' at h ⊢
    split
    · exact ⟨zero, rfl⟩
    · rename_i hzero
      rw [Bool.or_eq_true, isZero, isZero, beq_iff_eq, beq_iff_eq, not_or] at hzero
      obtain ⟨d, hd, hnormal, hscale, hmul⟩ := exists_mantissa_mul_eq h
      have hdvd : 10 ^ (a'.scale + b'.scale - d.scale) ∣ a'.mantissa * b'.mantissa :=
        Dvd.intro_left _ hmul.symm
      have hfits : a'.mantissa * b'.mantissa / 10 ^ (a'.scale + b'.scale - d.scale)
          ≤ maxMantissa := by
        rw [hmul, Nat.mul_div_cancel _ (by positivity)]
        exact d.mantissa_le
      obtain ⟨p, hp, hpdvd⟩ := exists_rounded? (a'.negative != b'.negative)
        (le_min hscale d.scale_le) hdvd hfits
      have hrounded : roundedProduct? a' b' = some p := hp
      -- the rounded product is exact, so the test finds the smallest scale that it expects
      have hsmallest : p.normalize.scale = d.scale := by
        rw [normalize_eq_iff.2 ((toRat_of_roundedProduct? hrounded hpdvd).trans hd.symm), hnormal]
      have hzeros : a'.scale + b'.scale - d.scale ≤ trailingZeros a'.mantissa b'.mantissa :=
        (ten_pow_dvd_mul_iff hzero.1 hzero.2 _).1 hdvd
      have htest : ¬ p.normalize.scale + trailingZeros a'.mantissa b'.mantissa
          < a'.scale + b'.scale := by
        omega
      rw [hrounded]
      exact ⟨p, if_neg htest⟩

end Decimal

end GuardedMachine
