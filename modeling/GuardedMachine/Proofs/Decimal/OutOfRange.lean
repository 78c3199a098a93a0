/-
# Numbers that decimals do not hold

An operation whose exact result is no decimal fails in one of two ways: the result is out of
range, or it has more digits than a decimal holds.

* A sum is out of range if it is an integer.  When trailing zeros are dropped, an integer is left
  without a fraction, and only an integer is (`stripZeros_snd_eq_zero_iff`).
* A product or a quotient is out of range if the nearest integer is, of two the even one.  The
  greatest mantissa is odd, so this is so from half a unit above it on (`Beyond`).  Otherwise it
  has a decimal next to it, and what is wrong is that the two are not the same.
-/
import GuardedMachine.Proofs.Decimal.Representable

namespace GuardedMachine

/-- Rounded to the nearest integer, of two the even one, a number is above an odd bound from half
a unit above it on. -/
lemma Ratio.nearest_le_iff {r : Ratio} {bound : ℕ} (hd : 0 < r.den) (hodd : bound % 2 = 1) :
    r.nearest ≤ bound ↔ 2 * r.num < (2 * bound + 1) * r.den := by
  have hnum : r.den * r.floor + r.num % r.den = r.num := Nat.div_add_mod r.num r.den
  have hrest : r.num % r.den < r.den := Nat.mod_lt _ hd
  have hbound : (2 * bound + 1) * r.den = 2 * (r.den * bound) + r.den := by ring
  rw [nearest, twiceRemainder, hbound]
  rcases lt_trichotomy r.floor bound with hlt | heq | hgt
  · have hstep : r.den * (r.floor + 1) ≤ r.den * bound := Nat.mul_le_mul_left _ hlt
    rw [Nat.mul_add_one] at hstep
    split <;> omega
  · -- at the bound itself a half is rounded up
    rw [heq] at hnum ⊢
    split <;> omega
  · have hstep : r.den * (bound + 1) ≤ r.den * r.floor := Nat.mul_le_mul_left _ hgt
    rw [Nat.mul_add_one] at hstep
    split <;> omega

namespace Decimal

/-- The nearest integer to a number, of two the even one, is above the greatest mantissa. -/
def Beyond (x : ℚ) : Prop := 2 ^ 96 - 1 + 1 / 2 ≤ |x|

lemma beyond_iff {x : ℚ} {n d : ℕ} (hd : 0 < d) (h : |x| = n / d) :
    Beyond x ↔ (2 * maxMantissa + 1) * d ≤ 2 * n := by
  have hd : (0 : ℚ) < d := by exact_mod_cast hd
  have hmax : (maxMantissa : ℚ) = 2 ^ 96 - 1 := by norm_num [maxMantissa]
  rw [Beyond, h, ← hmax, le_div_iff₀ hd]
  have hcast : (2 * maxMantissa + 1) * d ≤ 2 * n
      ↔ (2 * (maxMantissa : ℚ) + 1) * d ≤ 2 * n := by norm_cast
  rw [hcast]
  constructor <;> intro h <;> linarith

lemma representable_of_int {n : ℤ} (h : |(n : ℚ)| ≤ 2 ^ 96 - 1) : Representable n := by
  refine ⟨n, 0, ?_, by decide, by simp⟩
  have hle : ((n.natAbs : ℕ) : ℚ) ≤ ((2 ^ 96 - 1 : ℕ) : ℚ) := by
    rw [Nat.cast_natAbs, Int.cast_abs]
    exact h.trans (by norm_num)
  exact_mod_cast hle

/-- Parts are refused if one of them is above its bound. -/
lemma ofParts?_eq_none_iff {negative : Bool} {mantissa scale : ℕ} (hscale : scale ≤ maxScale) :
    ofParts? negative mantissa scale = none ↔ ¬ mantissa ≤ maxMantissa := by
  rw [ofParts?]
  split <;> simp_all

lemma ofParts?_nearest_eq_none_iff {negative : Bool} {n d scale : ℕ} (hd : 0 < d)
    (hscale : scale ≤ maxScale) : ofParts? negative (Ratio.nearest ⟨n, d⟩) scale = none ↔
      (2 * maxMantissa + 1) * d ≤ 2 * n := by
  rw [ofParts?_eq_none_iff hscale, Ratio.nearest_le_iff hd (by decide), not_lt]

/-! ## Sums -/

/-- Dropping trailing zeros leaves no fraction exactly of an integer. -/
lemma stripZeros_snd_eq_zero_iff {m s : ℕ} : (stripZeros m s).2 = 0 ↔ 10 ^ s ∣ m := by
  constructor
  · intro h
    have hvalue := stripZeros_value m s
    rw [h, Nat.pow_eq, Nat.pow_eq, pow_zero, mul_one] at hvalue
    exact ⟨(stripZeros m s).1, by rw [mul_comm, hvalue]⟩
  · rintro ⟨k, rfl⟩
    have hstripped : stripZeros (10 ^ s * k) s = stripZeros k 0 :=
      stripZeros_eq_of_mul_eq (by ring)
    rw [hstripped]
    rfl

lemma exists_int_iff_dvd {n : ℤ} {s : ℕ} :
    (∃ k : ℤ, (n : ℚ) / 10 ^ s = k) ↔ 10 ^ s ∣ n.natAbs := by
  have hpow : (10 : ℚ) ^ s ≠ 0 := by positivity
  rw [← Int.natCast_dvd]
  constructor
  · rintro ⟨k, hk⟩
    rw [div_eq_iff hpow] at hk
    exact ⟨k, by rw [mul_comm]; exact_mod_cast hk⟩
  · rintro ⟨k, rfl⟩
    refine ⟨k, ?_⟩
    push_cast
    rw [mul_div_cancel_left₀ _ hpow]

/-- A coefficient without a decimal is out of range if it stands for an integer. -/
lemma ofCoefficient_overflow_iff {n : ℤ} {s : ℕ} (h : ¬ Representable (n / 10 ^ s)) :
    ofCoefficient n s = .error .overflow ↔ ∃ k : ℤ, (n : ℚ) / 10 ^ s = k := by
  rw [exists_int_iff_dvd, ← stripZeros_snd_eq_zero_iff]
  rw [← ofCoefficient_ok_iff] at h
  simp only [ofCoefficient] at h ⊢
  split
  · rename_i d hd
    exact absurd ⟨d, by rw [hd]⟩ h
  · rw [unrepresentable]
    split <;> simp_all

section Sum

variable {a b : Decimal}

lemma sum_overflow_iff (h : ¬ Representable (a.toRat + b.toRat)) :
    a.sum b = .error .overflow ↔ ∃ k : ℤ, a.toRat + b.toRat = k := by
  rw [← alignedSum_div] at h ⊢
  rw [sum_eq_unboundedSum]
  exact ofCoefficient_overflow_iff h

lemma difference_overflow_iff (h : ¬ Representable (a.toRat - b.toRat)) :
    a.difference b = .error .overflow ↔ ∃ k : ℤ, a.toRat - b.toRat = k := by
  rw [sub_eq_add_neg, ← toRat_neg] at h ⊢
  exact sum_overflow_iff h

end Sum

/-! ## Products -/

/-- The whole part fits at a scale, so with one digit less the nearest integer does. -/
lemma lt_of_fits {m s scale : ℕ} (hscale : scale < s)
    (hfits : m / 10 ^ (s - (scale + 1)) ≤ maxMantissa) :
    2 * m < (2 * maxMantissa + 1) * 10 ^ (s - scale) := by
  have hm : m < (maxMantissa + 1) * 10 ^ (s - (scale + 1)) :=
    Nat.lt_mul_of_div_lt (Nat.lt_succ_of_le hfits) (by positivity)
  have hpow : 10 ^ (s - scale) = 10 * 10 ^ (s - (scale + 1)) := by
    rw [← pow_succ']
    congr 1
    omega
  have hpos : 0 < 10 ^ (s - (scale + 1)) := by positivity
  rw [hpow]
  nlinarith only [hm, hpos]

lemma fits_of_fittingScale? {m s scale k : ℕ} (h : fittingScale? m s scale = some k) :
    m / 10 ^ (s - k) ≤ maxMantissa := by
  induction scale with
  | zero =>
    simp only [fittingScale?, Nat.pow_eq, Option.ite_none_right_eq_some, Option.some.injEq] at h
    obtain ⟨hfits, rfl⟩ := h
    exact hfits
  | succ scale ih =>
    rw [fittingScale?, Nat.pow_eq] at h
    split at h
    · rename_i hfits
      obtain rfl := Option.some.inj h
      exact hfits
    · exact ih h

/-- Rounding has no result if not even the nearest integer fits. -/
lemma rounded?_eq_none_iff (negative : Bool) {m s : ℕ} :
    rounded? negative m s = none ↔ (2 * maxMantissa + 1) * 10 ^ s ≤ 2 * m := by
  have hwiden {k : ℕ} (h : 2 * m < (2 * maxMantissa + 1) * 10 ^ (s - k)) :
      ¬ (2 * maxMantissa + 1) * 10 ^ s ≤ 2 * m := by
    have hpow : 10 ^ (s - k) ≤ 10 ^ s := Nat.pow_le_pow_right (by decide) (Nat.sub_le s k)
    exact not_le.2 (h.trans_le (Nat.mul_le_mul_left _ hpow))
  have hnone {k : ℕ} (hk : k ≤ maxScale) :
      ofParts? negative (Ratio.nearest ⟨m, 10 ^ (s - k)⟩) k = none ↔
        (2 * maxMantissa + 1) * 10 ^ (s - k) ≤ 2 * m :=
    ofParts?_nearest_eq_none_iff (by positivity) hk
  rw [rounded?]
  simp only [Nat.pow_eq, Option.bind_eq_bind]
  rcases hfitting : fittingScale? m s (min s maxScale) with _ | scale
  · -- the whole part does not fit at any scale, and it is least at scale zero
    have hgreat : ¬ m / 10 ^ s ≤ maxMantissa := by
      intro hfits
      obtain ⟨j, hj, -⟩ := exists_fittingScale? (Nat.zero_le (min s maxScale)) hfits
      cases hfitting.symm.trans hj
    have hle : (maxMantissa + 1) * 10 ^ s ≤ m :=
      (Nat.le_div_iff_mul_le (by positivity)).1 (not_le.1 hgreat)
    refine iff_of_true rfl ?_
    nlinarith only [hle]
  · have hmin : scale ≤ min s maxScale := fittingScale?_le hfitting
    have hscale : scale ≤ maxScale := hmin.trans (min_le_right _ _)
    rw [Option.bind_some]
    rcases hparts : ofParts? negative (Ratio.nearest ⟨m, 10 ^ (s - scale)⟩) scale with _ | d
    · cases scale with
      | zero => exact iff_of_true rfl ((hnone hscale).1 hparts)
      | succ k =>
        -- rounding up exceeds the bound, and one digit less is enough
        have hlt := lt_of_fits (hmin.trans (min_le_left _ _)) (fits_of_fittingScale? hfitting)
        have hfewer : ofParts? negative (Ratio.nearest ⟨m, 10 ^ (s - k)⟩) k ≠ none :=
          mt (hnone (Nat.le_of_succ_le hscale)).1 (not_le.2 hlt)
        exact iff_of_false hfewer (hwiden hlt)
    · have hlt : ¬ (2 * maxMantissa + 1) * 10 ^ (s - scale) ≤ 2 * m :=
        mt (hnone hscale).2 (by simp [hparts])
      exact iff_of_false (by simp) (hwiden (not_le.1 hlt))

lemma product_overflow_iff {a b : Decimal} :
    a.product b = .error .overflow ↔ Beyond (a.toRat * b.toRat) := by
  rw [← toRat_normalize a, ← toRat_normalize b, product]
  generalize a.normalize = a'
  generalize b.normalize = b'
  have habs : |a'.toRat * b'.toRat|
      = (a'.mantissa * b'.mantissa : ℕ) / (10 ^ (a'.scale + b'.scale) : ℕ) := by
    rw [abs_toRat_mul_toRat, Nat.cast_pow]
    rfl
  rw [beyond_iff (by positivity) habs]
  split
  · rename_i hzero
    have hmantissa : a'.mantissa * b'.mantissa = 0 := by simpa [isZero] using hzero
    have hpos : 0 < (2 * maxMantissa + 1) * 10 ^ (a'.scale + b'.scale) := by positivity
    exact iff_of_false (by simp) (by rw [hmantissa]; omega)
  · rw [← rounded?_eq_none_iff (a'.negative != b'.negative)]
    split
    · rename_i hnone
      exact iff_of_true rfl hnone
    · rename_i p hp
      have hsome : roundedProduct? a' b' ≠ none := by simp [hp]
      refine iff_of_false ?_ hsome
      split <;> simp

end Decimal

end GuardedMachine
