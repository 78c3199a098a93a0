/-
# Division

A quotient comes from a division that may round, and it is kept if it multiplies back to the
dividend.  This test is as good as a comparison with the exact quotient: the product is exact, and
it does not fail on the exact quotient, as the dividend is a decimal (`multipliesBack_iff`).

What the division gives is otherwise left open, also the scale in which it gives it.  It is enough
that it does not round a quotient that decimals hold, and that it has none to give if and only if
the quotient is out of range (`RoundsQuotients`).  Then the exact quotient of two numbers decides
what becomes of it, whatever division is taken and in whatever way the numbers are written
(`quotientBy_agrees`).  `roundedQuotient?` is such a division.
-/
import GuardedMachine.Proofs.Decimal.OutOfRange

namespace GuardedMachine

namespace Decimal

/-- A division does not round a quotient that a decimal holds. -/
def DividesExactly (divide : Decimal → Decimal → Option Decimal) : Prop :=
  ∀ a b : Decimal, b.toRat ≠ 0 → Representable (a.toRat / b.toRat) →
    ∃ q, divide a b = some q ∧ q.toRat = a.toRat / b.toRat

/-- What a division that may round does: a quotient that a decimal holds is not rounded, and there
is no quotient if it is out of range. -/
structure RoundsQuotients (divide : Decimal → Decimal → Option Decimal) : Prop where
  exact : DividesExactly divide
  eq_none_iff : ∀ a b : Decimal, b.toRat ≠ 0 → (divide a b = none ↔ Beyond (a.toRat / b.toRat))

/-! ## Multiplying back -/

section Division

variable {divide divide' : Decimal → Decimal → Option Decimal} {a a' b b' q : Decimal}

/-- The dividend is a decimal, so the product does not fail on the quotient. -/
lemma multipliesBack_iff : multipliesBack q a b = true ↔ q.toRat * b.toRat = a.toRat := by
  refine ⟨toRat_mul_of_multipliesBack, fun h => ?_⟩
  obtain ⟨back, hback⟩ := (product_ok_iff q b).2 (h ▸ representable_toRat a)
  rw [multipliesBack, hback]
  exact (sameNumber_iff back a).2 ((toRat_of_product hback).trans h)

lemma quotientBy_eq_ok_iff : quotientBy divide a b = .ok q ↔
    b.toRat ≠ 0 ∧ divide a b = some q ∧ q.toRat = a.toRat / b.toRat := by
  by_cases hb : b.toRat = 0
  · rw [quotientBy, if_pos (isZero_iff.2 hb)]
    simp [hb]
  rw [quotientBy, if_neg (mt isZero_iff.1 hb), and_iff_right hb]
  rcases divide a b with _ | q'
  · simp
  dsimp only
  constructor
  · intro h
    split at h
    · rename_i hback
      obtain rfl := Except.ok.inj h
      exact ⟨rfl, (eq_div_iff hb).2 (multipliesBack_iff.1 hback)⟩
    · cases h
  · rintro ⟨hq, hvalue⟩
    obtain rfl := Option.some.inj hq
    exact if_pos (multipliesBack_iff.2 ((eq_div_iff hb).1 hvalue))

lemma quotientBy_ok_iff (hdivide : DividesExactly divide) (hb : b.toRat ≠ 0) :
    (∃ q, quotientBy divide a b = .ok q) ↔ Representable (a.toRat / b.toRat) := by
  constructor
  · rintro ⟨q, hq⟩
    rw [← toRat_of_quotientBy hq]
    exact representable_toRat q
  · intro h
    obtain ⟨q, hq, hvalue⟩ := hdivide a b hb h
    exact ⟨q, quotientBy_eq_ok_iff.2 ⟨hb, hq, hvalue⟩⟩

lemma quotientBy_overflow_iff (hdivide : RoundsQuotients divide) (hb : b.toRat ≠ 0) :
    quotientBy divide a b = .error .overflow ↔ Beyond (a.toRat / b.toRat) := by
  rw [← hdivide.eq_none_iff a b hb, quotientBy, if_neg (mt isZero_iff.1 hb)]
  rcases divide a b with _ | q
  · exact iff_of_true rfl rfl
  · refine iff_of_false ?_ (by simp)
    dsimp only
    split <;> simp

/-- Which failure a division ends with, from the numbers. -/
def FailsWith (x y : ℚ) : Failure → Prop
  | .divisionByZero => y = 0
  | .overflow => y ≠ 0 ∧ Beyond (x / y)
  | .inexact => y ≠ 0 ∧ ¬ Representable (x / y) ∧ ¬ Beyond (x / y)

lemma quotientBy_eq_error_iff (hdivide : RoundsQuotients divide) {failure : Failure} :
    quotientBy divide a b = .error failure ↔ FailsWith a.toRat b.toRat failure := by
  have hzero : quotientBy divide a b = .error .divisionByZero ↔ b.toRat = 0 :=
    quotientBy_divisionByZero_iff
  by_cases hb : b.toRat = 0
  · rw [hzero.2 hb]
    cases failure <;> simp [FailsWith, hb]
  have hover := quotientBy_overflow_iff (a := a) hdivide hb
  have hok := quotientBy_ok_iff (a := a) hdivide.exact hb
  cases failure with
  | divisionByZero => exact hzero
  | overflow => exact hover.trans (and_iff_right hb).symm
  | inexact =>
    -- it is what none of the other results is
    rw [FailsWith, and_iff_right hb, ← hok, ← hover]
    rcases h : quotientBy divide a b with (_ | _ | _) | q
    · simp
    · simp
    · exact absurd (hzero.1 h) hb
    · simp

/-- Any two divisions agree on numbers that are the same: on the quotient, if not on how it is
written, or on why there is none. -/
lemma quotientBy_agrees (hdivide : RoundsQuotients divide) (hdivide' : RoundsQuotients divide')
    (ha : a.toRat = a'.toRat) (hb : b.toRat = b'.toRat) :
    (∃ q q', quotientBy divide a b = .ok q ∧ quotientBy divide' a' b' = .ok q' ∧
      q.toRat = q'.toRat) ∨
    ∃ failure, quotientBy divide a b = .error failure ∧
      quotientBy divide' a' b' = .error failure := by
  have hfails (failure : Failure) : quotientBy divide a b = .error failure ↔
      quotientBy divide' a' b' = .error failure := by
    rw [quotientBy_eq_error_iff hdivide, quotientBy_eq_error_iff hdivide', ha, hb]
  rcases hq : quotientBy divide a b with failure | q
  · exact .inr ⟨failure, rfl, (hfails failure).1 hq⟩
  · rcases hq' : quotientBy divide' a' b' with failure | q'
    · cases hq.symm.trans ((hfails failure).2 hq')
    · refine .inl ⟨q, q', rfl, rfl, ?_⟩
      rw [toRat_of_quotientBy hq, toRat_of_quotientBy hq', ha, hb]

end Division

/-! ## A division -/

/-- A quotient of numbers as a ratio of natural numbers. -/
lemma mantissa_mul_eq_of_quotient {a b q : Decimal} (hb : b.mantissa ≠ 0)
    (hq : q.toRat = a.toRat / b.toRat) :
    a.mantissa * 10 ^ b.scale * 10 ^ q.scale = q.mantissa * (b.mantissa * 10 ^ a.scale) := by
  have hb : (b.mantissa : ℚ) ≠ 0 := by exact_mod_cast hb
  have habs : (q.mantissa : ℚ) / 10 ^ q.scale
      = a.mantissa / 10 ^ a.scale / (b.mantissa / 10 ^ b.scale) := by
    rw [← abs_toRat, ← abs_toRat, ← abs_toRat, hq, abs_div]
  field_simp at habs
  have hcross : q.mantissa * 10 ^ a.scale * b.mantissa
      = 10 ^ q.scale * a.mantissa * 10 ^ b.scale := by exact_mod_cast habs
  linarith

lemma abs_div_toRat (a b : Decimal) : |a.toRat / b.toRat|
    = (a.mantissa * 10 ^ b.scale : ℕ) / (b.mantissa * 10 ^ a.scale : ℕ) := by
  rw [abs_div, abs_toRat, abs_toRat, div_div_div_eq]
  push_cast
  ring

/-- The quotient of two numbers as a sign and a ratio of natural numbers. -/
lemma signFactor_mul_ratio {a b : Decimal} (hb : b.mantissa ≠ 0) :
    signFactor (a.negative != b.negative) * ((a.mantissa * 10 ^ b.scale : ℕ) /
      (b.mantissa * 10 ^ a.scale : ℕ)) = a.toRat / b.toRat := by
  have hb : (b.mantissa : ℚ) ≠ 0 := by exact_mod_cast hb
  rw [signFactor_bne, toRat_eq, toRat_eq]
  push_cast
  -- a sign is its own inverse
  cases b.negative <;> simp only [signFactor] <;> field_simp <;> simp

/-- The integer `n * 10 ^ scale / d` at a scale stands for `n / d`. -/
lemma toRat_of_integral {negative : Bool} {n d scale : ℕ} {q : Decimal} (hd : d ≠ 0)
    (hdvd : d ∣ n * 10 ^ scale) (h : ofParts? negative (n * 10 ^ scale / d) scale = some q) :
    q.toRat = signFactor negative * (n / d) := by
  have hd : (d : ℚ) ≠ 0 := by exact_mod_cast hd
  have hpow : (10 : ℚ) ^ scale ≠ 0 := by positivity
  rw [toRat_of_ofParts? h, Nat.cast_div hdvd hd]
  push_cast
  rw [div_right_comm, mul_div_cancel_right₀ _ hpow]

/-- Mantissas that divide give the quotient in the scale that is left. -/
lemma exists_ofParts?_div {a b : Decimal} (hb : b.mantissa ≠ 0) (hdvd : b.mantissa ∣ a.mantissa)
    (hscale : b.scale ≤ a.scale) :
    ∃ q, ofParts? (a.negative != b.negative) (a.mantissa / b.mantissa) (a.scale - b.scale)
      = some q ∧ q.toRat = a.toRat / b.toRat := by
  have hd : b.mantissa * 10 ^ a.scale ≠ 0 := by positivity
  have hn : a.mantissa * 10 ^ b.scale * 10 ^ (a.scale - b.scale) = a.mantissa * 10 ^ a.scale := by
    rw [mul_assoc, ← pow_add, Nat.add_sub_cancel' hscale]
  have hquotient : a.mantissa * 10 ^ b.scale * 10 ^ (a.scale - b.scale)
      / (b.mantissa * 10 ^ a.scale) = a.mantissa / b.mantissa := by
    rw [hn, Nat.mul_div_mul_right _ _ (by positivity)]
  obtain ⟨q, hq⟩ : ∃ q, ofParts? (a.negative != b.negative) (a.mantissa / b.mantissa)
      (a.scale - b.scale) = some q :=
    ⟨_, dif_pos ⟨(Nat.div_le_self _ _).trans a.mantissa_le, (Nat.sub_le _ _).trans a.scale_le⟩⟩
  refine ⟨q, hq, ?_⟩
  rw [← hquotient] at hq
  rw [toRat_of_integral hd (hn ▸ Nat.mul_dvd_mul_right hdvd _) hq, signFactor_mul_ratio hb]

section RoundedRatio

variable {negative : Bool} {n d scale : ℕ}

lemma roundedRatio?_eq_none_iff (hd : 0 < d) (hscale : scale ≤ maxScale) :
    roundedRatio? negative n d scale = none ↔ (2 * maxMantissa + 1) * d ≤ 2 * n := by
  induction scale with
  | zero => exact ofParts?_nearest_eq_none_iff hd hscale
  | succ scale ih =>
    rw [roundedRatio?, Nat.pow_eq]
    split
    · -- what fits with more digits is within the range
      rename_i q hq
      have hsome : ofParts? negative (Ratio.nearest ⟨n * 10 ^ (scale + 1), d⟩) (scale + 1)
          ≠ none := by simp [hq]
      have hlt := mt (ofParts?_nearest_eq_none_iff hd hscale).2 hsome
      have hle : n ≤ n * 10 ^ (scale + 1) := Nat.le_mul_of_pos_right n (by positivity)
      exact iff_of_false (by simp) (by omega)
    · exact ih (Nat.le_of_succ_le hscale)

/-- A ratio that is an integer over a power of ten within the bounds is not rounded. -/
lemma exists_roundedRatio? (hd : 0 < d) (hscale : scale ≤ maxScale) {k : ℕ} (hk : k ≤ scale)
    (hdvd : d ∣ n * 10 ^ k) (hfits : n * 10 ^ k / d ≤ maxMantissa) :
    ∃ q, roundedRatio? negative n d scale = some q ∧ q.toRat = signFactor negative * (n / d) := by
  have hnearest {j : ℕ} (hj : d ∣ n * 10 ^ j) :
      Ratio.nearest ⟨n * 10 ^ j, d⟩ = n * 10 ^ j / d :=
    Ratio.nearest_eq_of_mod_eq_zero hd (Nat.mod_eq_zero_of_dvd hj)
  induction scale with
  | zero =>
    obtain rfl := Nat.le_zero.1 hk
    have hparts : ofParts? negative (n * 10 ^ 0 / d) 0
        = some ⟨negative, n * 10 ^ 0 / d, 0, hfits, hscale⟩ := dif_pos ⟨hfits, hscale⟩
    refine ⟨_, ?_, toRat_of_integral hd.ne' hdvd hparts⟩
    rw [roundedRatio?, ← hparts, ← hnearest hdvd, pow_zero, mul_one]
  | succ scale ih =>
    have hdvd' : d ∣ n * 10 ^ (scale + 1) :=
      hdvd.trans (Nat.mul_dvd_mul_left n (pow_dvd_pow 10 hk))
    rw [roundedRatio?, Nat.pow_eq, hnearest hdvd']
    split
    · rename_i q hq
      exact ⟨q, rfl, toRat_of_integral hd.ne' hdvd' hq⟩
    · rename_i hnone
      have hne : k ≠ scale + 1 := by
        rintro rfl
        exact (ofParts?_eq_none_iff hscale).1 hnone hfits
      exact ih (Nat.le_of_succ_le hscale) (by omega)

end RoundedRatio

section RoundedQuotient

variable {a b : Decimal}

/-- The ratio of two decimals, rounded to the digits that a decimal holds. -/
def ratioRounded? (a b : Decimal) : Option Decimal :=
  roundedRatio? (a.negative != b.negative) (a.mantissa * 10 ^ b.scale) (b.mantissa * 10 ^ a.scale)
    maxScale

lemma ratioRounded?_eq_none_iff (hb : b.toRat ≠ 0) :
    ratioRounded? a b = none ↔ Beyond (a.toRat / b.toRat) := by
  have hmantissa : b.mantissa ≠ 0 := mt toRat_eq_zero_iff.2 hb
  rw [beyond_iff (by positivity) (abs_div_toRat a b)]
  exact roundedRatio?_eq_none_iff (by positivity) le_rfl

lemma exists_ratioRounded? (hb : b.toRat ≠ 0) (h : Representable (a.toRat / b.toRat)) :
    ∃ q, ratioRounded? a b = some q ∧ q.toRat = a.toRat / b.toRat := by
  obtain ⟨q, hq, -⟩ := exists_of_representable h
  have hmantissa : b.mantissa ≠ 0 := mt toRat_eq_zero_iff.2 hb
  have hd : 0 < b.mantissa * 10 ^ a.scale := by positivity
  have hratio := mantissa_mul_eq_of_quotient hmantissa hq
  have hfits : a.mantissa * 10 ^ b.scale * 10 ^ q.scale / (b.mantissa * 10 ^ a.scale)
      ≤ maxMantissa := by
    rw [hratio, Nat.mul_div_cancel _ hd]
    exact q.mantissa_le
  obtain ⟨r, hr, hvalue⟩ := exists_roundedRatio? hd le_rfl q.scale_le
    (Dvd.intro_left _ hratio.symm) hfits
  exact ⟨r, hr, hvalue.trans (signFactor_mul_ratio hmantissa)⟩

/-- A quotient that needs no digits but those of the operands is exact, and any other one is
rounded. -/
lemma roundedQuotient?_cases (hb : b.toRat ≠ 0) :
    (∃ q, roundedQuotient? a b = some q ∧ q.toRat = a.toRat / b.toRat) ∨
      roundedQuotient? a b = (ratioRounded? a b).map normalize := by
  have hmantissa : b.mantissa ≠ 0 := mt toRat_eq_zero_iff.2 hb
  rw [roundedQuotient?]
  split
  · rename_i hzero
    exact .inl ⟨zero, rfl, by rw [isZero_iff.1 hzero, zero_div, toRat_zero]⟩
  · split
    · rename_i hdivides
      exact .inl (exists_ofParts?_div hmantissa (Nat.dvd_of_mod_eq_zero hdivides.1) hdivides.2)
    · exact .inr rfl

/-- A number that decimals hold is not out of range. -/
lemma not_beyond_of_representable {x : ℚ} (h : Representable x) : ¬ Beyond x := by
  obtain ⟨m, s, hm, -, rfl⟩ := h
  have hpow : (1 : ℚ) ≤ 10 ^ s := one_le_pow₀ (by norm_num)
  have hle : ((m.natAbs : ℕ) : ℚ) / 10 ^ s ≤ m.natAbs := div_le_self (Nat.cast_nonneg _) hpow
  have hbound : ((m.natAbs : ℕ) : ℚ) ≤ 2 ^ 96 - 1 := by
    have hcast : ((m.natAbs : ℕ) : ℚ) ≤ ((2 ^ 96 - 1 : ℕ) : ℚ) := by exact_mod_cast hm
    exact hcast.trans (by norm_num)
  rw [Beyond, abs_int_div_pow]
  linarith

lemma roundsQuotients_roundedQuotient? : RoundsQuotients roundedQuotient? where
  exact a b hb h := by
    rcases roundedQuotient?_cases hb with hexact | hrounded
    · exact hexact
    · obtain ⟨q, hq, hvalue⟩ := exists_ratioRounded? hb h
      exact ⟨q.normalize, by rw [hrounded, hq, Option.map_some], by rw [toRat_normalize, hvalue]⟩
  eq_none_iff a b hb := by
    rcases roundedQuotient?_cases hb with ⟨q, hq, hvalue⟩ | hrounded
    · have hbeyond : ¬ Beyond (a.toRat / b.toRat) :=
        not_beyond_of_representable (hvalue ▸ representable_toRat q)
      exact iff_of_false (by simp [hq]) hbeyond
    · rw [hrounded, Option.map_eq_none_iff, ratioRounded?_eq_none_iff hb]

end RoundedQuotient

/-- Ten divided by three has no exact quotient, and the rounded one does not multiply back. -/
example : quotientBy roundedQuotient? ⟨false, 10, 0, by decide, by decide⟩
    ⟨false, 3, 0, by decide, by decide⟩ = .error .inexact := by decide +kernel

end Decimal

end GuardedMachine
