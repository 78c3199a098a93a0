/-
# The test for rounded products

A product is computed by a multiplication that may round, and a test on scales finds out whether it
did.  The test never forms the full product of the two mantissas.  It counts their factors two and
five, and the smaller count is the number of zeros that the digits of the full product end with
(`trailingZeros_eq_finalZeros`).

So the test knows how many fraction digits the exact product has, and it asks for no more than that:
whether the smallest scale of what was computed has room for them (`hasPlaces_mul_iff`).  A number
that is off by less than one unit of its last digit is exact if and only if it has
(`toRat_eq_mul_iff`).  How the multiplication rounds does not matter, and it may round to zero.
-/
import Mathlib.Data.Nat.Digits.Defs
import GuardedMachine.Proofs.Decimal.OutOfRange

namespace GuardedMachine

/-- The integer nearest to a ratio is less than one away from it. -/
lemma Ratio.abs_nearest_sub_lt {r : Ratio} (hd : 0 < r.den) :
    |(r.nearest : ℚ) - r.num / r.den| < 1 := by
  have hnum : r.den * r.floor + r.num % r.den = r.num := Nat.div_add_mod r.num r.den
  have hrest : r.num % r.den < r.den := Nat.mod_lt _ hd
  have hbounds : r.nearest * r.den < r.num + r.den ∧ r.num < r.nearest * r.den + r.den := by
    rw [nearest, twiceRemainder, Nat.mul_comm]
    split
    · rw [Nat.mul_add_one]
      omega
    · omega
  have hbelow : (r.nearest : ℚ) * r.den < r.num + r.den := by exact_mod_cast hbounds.1
  have habove : (r.num : ℚ) < r.nearest * r.den + r.den := by exact_mod_cast hbounds.2
  have hden : (0 : ℚ) < r.den := by exact_mod_cast hd
  rw [abs_sub_lt_iff, sub_lt_iff_lt_add, sub_lt_iff_lt_add, ← sub_lt_iff_lt_add', lt_div_iff₀ hden,
    div_lt_iff₀ hden]
  constructor <;> linarith

namespace Decimal

/-! ## Zeros at the end -/

/-- How many zeros the digits of a number end with. -/
def finalZeros (n : ℕ) : ℕ := ((Nat.digits 10 n).takeWhile (· == 0)).length

lemma finalZeros_pow_mul {m : ℕ} (hm : ¬ 10 ∣ m) (k : ℕ) : finalZeros (10 ^ k * m) = k := by
  have hpos : 0 < m := Nat.pos_of_ne_zero fun hzero => hm (hzero ▸ dvd_zero 10)
  have hlast : (m % 10 == 0) = false := beq_eq_false_iff_ne.2 (mt Nat.dvd_of_mod_eq_zero hm)
  have hzeros : ∀ d ∈ List.replicate k 0, (d == 0) = true := fun d hd =>
    beq_iff_eq.2 (List.eq_of_mem_replicate hd)
  rw [finalZeros, Nat.digits_base_pow_mul (by decide) hpos, List.takeWhile_append_of_pos hzeros,
    Nat.digits_def' (by decide) hpos, List.takeWhile_cons_of_neg (by simp [hlast]),
    List.append_nil, List.length_replicate]

/-- The powers of ten that divide a number are those up to its count of zeros at the end. -/
lemma ten_pow_dvd_iff {n : ℕ} (hn : n ≠ 0) (k : ℕ) : 10 ^ k ∣ n ↔ k ≤ finalZeros n := by
  obtain ⟨z, m, hm, rfl⟩ := Nat.exists_eq_pow_mul_and_not_dvd hn 10 (by decide)
  rw [finalZeros_pow_mul hm]
  constructor
  · -- one more zero would have to come from the last digit that is not zero
    intro hdvd
    by_contra hlt
    have hnext : 10 ^ z * 10 ∣ 10 ^ z * m :=
      (pow_succ 10 z ▸ pow_dvd_pow 10 (not_le.1 hlt)).trans hdvd
    exact hm ((Nat.mul_dvd_mul_iff_left (by positivity)).1 hnext)
  · intro hle
    exact (pow_dvd_pow 10 hle).trans (dvd_mul_right _ _)

section Factors

variable {m n : ℕ}

lemma factorCount_eq_padicValNat {p : ℕ} (hp : p.Prime) (n : ℕ) :
    factorCount p n = padicValNat p n := by
  rw [factorCount_eq_factorization hp, Nat.factorization_def n hp]

lemma trailingZeros_eq_min (m n : ℕ) : trailingZeros m n =
    min (padicValNat 2 m + padicValNat 2 n) (padicValNat 5 m + padicValNat 5 n) := by
  simp only [trailingZeros, factorCount_eq_padicValNat Nat.prime_two,
    factorCount_eq_padicValNat Nat.prime_five]

/-- The count from the factors is the number of zeros at the end of the product. -/
lemma trailingZeros_eq_finalZeros (hm : m ≠ 0) (hn : n ≠ 0) :
    trailingZeros m n = finalZeros (m * n) :=
  eq_of_forall_le_iff fun k =>
    (ten_pow_dvd_mul_iff hm hn k).symm.trans (ten_pow_dvd_iff (mul_ne_zero hm hn) k)

end Factors

/-! ## Fraction digits -/

/-- A number has at most `k` fraction digits. -/
def HasPlaces (k : ℕ) (x : ℚ) : Prop := ∃ n : ℤ, x = n / 10 ^ k

lemma hasPlaces_div_iff {n : ℤ} {s k : ℕ} :
    HasPlaces k (n / 10 ^ s) ↔ 10 ^ (s - k) ∣ n.natAbs := by
  have hk : (10 : ℚ) ^ k ≠ 0 := by positivity
  rcases le_total k s with hle | hle
  · obtain ⟨j, rfl⟩ := Nat.exists_eq_add_of_le hle
    rw [Nat.add_sub_cancel_left, ← exists_int_iff_dvd]
    refine exists_congr fun i => ?_
    rw [pow_add, mul_comm, ← div_div, div_left_inj' hk]
  · rw [Nat.sub_eq_zero_of_le hle, pow_zero]
    refine iff_of_true ⟨n * 10 ^ (k - s), ?_⟩ (one_dvd _)
    obtain ⟨j, rfl⟩ := Nat.exists_eq_add_of_le hle
    rw [Nat.add_sub_cancel_left, pow_add]
    push_cast
    rw [mul_div_mul_right _ _ (by positivity)]

lemma HasPlaces.mono {k l : ℕ} {x : ℚ} (h : HasPlaces k x) (hle : k ≤ l) : HasPlaces l x := by
  obtain ⟨n, rfl⟩ := h
  rw [hasPlaces_div_iff, Nat.sub_eq_zero_of_le hle, pow_zero]
  exact one_dvd _

/-- Numbers with so many fraction digits are the same if they are less than one unit of the last
digit apart. -/
lemma HasPlaces.eq_of_abs_sub_lt {k : ℕ} {x y : ℚ} (hx : HasPlaces k x) (hy : HasPlaces k y)
    (h : |x - y| < 1 / 10 ^ k) : x = y := by
  obtain ⟨n, rfl⟩ := hx
  obtain ⟨m, rfl⟩ := hy
  have hpow : (0 : ℚ) < 10 ^ k := by positivity
  rw [← sub_div, abs_div, abs_of_pos hpow, div_lt_div_iff_of_pos_right hpow] at h
  have hint : |n - m| < 1 := by exact_mod_cast h
  rw [sub_eq_zero.1 (Int.abs_lt_one_iff.1 hint)]

variable {a b p : Decimal}

/-- The smallest scale of a decimal is the number of fraction digits that it needs. -/
lemma hasPlaces_toRat_iff {k : ℕ} : HasPlaces k p.toRat ↔ p.normalize.scale ≤ k := by
  rw [← toRat_normalize p]
  constructor
  · rintro ⟨n, hn⟩
    exact p.reduced_normalize.scale_le hn
  · exact HasPlaces.mono ⟨_, rfl⟩

/-- A product needs as many fraction digits as its operands together, less the zeros that the
product of the mantissas ends with. -/
lemma hasPlaces_mul_iff (ha : a.mantissa ≠ 0) (hb : b.mantissa ≠ 0) {k : ℕ} :
    HasPlaces k (a.toRat * b.toRat) ↔
      a.scale + b.scale ≤ k + trailingZeros a.mantissa b.mantissa := by
  rw [toRat_mul_toRat, hasPlaces_div_iff, Int.natAbs_mul, natAbs_coefficient, natAbs_coefficient,
    ten_pow_dvd_mul_iff ha hb]
  exact Nat.sub_le_iff_le_add'

/-! ## Multiplications that may round -/

/-- What a multiplication that may round does: a product has some number of fraction digits, and it
is off by less than one unit of the last one. -/
def RoundsProducts (multiply : Decimal → Decimal → Option Decimal) : Prop :=
  ∀ a b p : Decimal, multiply a b = some p →
    ∃ k, HasPlaces k p.toRat ∧ |p.toRat - a.toRat * b.toRat| < 1 / 10 ^ k

lemma roundsProducts_roundedProduct? : RoundsProducts roundedProduct? := by
  intro a b p hp
  obtain ⟨hnegative, hscale, hmantissa⟩ := parts_of_rounded? hp
  refine ⟨p.scale, ⟨_, rfl⟩, ?_⟩
  have hpow : (0 : ℚ) < 10 ^ p.scale := by positivity
  have hsign : |signFactor p.negative| = 1 := by cases p.negative <;> simp [signFactor]
  have hproduct : a.toRat * b.toRat = signFactor p.negative * ((a.mantissa * b.mantissa : ℕ)
      / (10 ^ (a.scale + b.scale - p.scale) : ℕ) / 10 ^ p.scale) := by
    rw [hnegative, signFactor_bne, toRat_eq, toRat_eq, div_div]
    push_cast
    rw [← pow_add, Nat.sub_add_cancel hscale, pow_add]
    ring
  rw [hproduct, toRat_eq, ← mul_sub, abs_mul, hsign, one_mul, ← sub_div, abs_div, abs_of_pos hpow,
    div_lt_div_iff_of_pos_right hpow, hmantissa]
  exact Ratio.abs_nearest_sub_lt (r := ⟨_, _⟩) (by positivity)

/-- A rounded product is exact if and only if it has room for the fraction digits of the exact
one. -/
lemma toRat_eq_mul_iff {multiply : Decimal → Decimal → Option Decimal}
    (hmultiply : RoundsProducts multiply) (hp : multiply a b = some p) (ha : a.mantissa ≠ 0)
    (hb : b.mantissa ≠ 0) : p.toRat = a.toRat * b.toRat ↔
      a.scale + b.scale ≤ p.normalize.scale + trailingZeros a.mantissa b.mantissa := by
  obtain ⟨k, hk, hnear⟩ := hmultiply a b p hp
  rw [← hasPlaces_mul_iff ha hb]
  constructor
  · intro hexact
    rw [← hexact]
    exact hasPlaces_toRat_iff.2 le_rfl
  · -- with room for its digits, the exact product lies on the grid that was rounded to
    intro hroom
    exact hk.eq_of_abs_sub_lt (hroom.mono (hasPlaces_toRat_iff.1 hk)) hnear

/-- A rounded product of decimals in their smallest scales is kept unless the test finds digits
lost. -/
lemma product_of_roundedProduct? (ha : a.normalize = a) (hb : b.normalize = b)
    (ha0 : a.isZero = false) (hb0 : b.isZero = false) (hp : roundedProduct? a b = some p) :
    a.product b = if p.normalize.scale + trailingZeros a.mantissa b.mantissa < a.scale + b.scale
      then .error .inexact else .ok p := by
  rw [product, ha, hb, ha0, hb0, Bool.or_false, if_neg Bool.false_ne_true, hp]

/-- **The test for rounded products.**  Counted from the factors two and five of two mantissas, the
zeros are those that the digits of their product end with.  So whichever way a multiplication
rounds, its product has a smaller smallest scale than the exact product needs if and only if it is
not the exact product.

The multiplication of decimals is such a multiplication.  What it gives is the product if it is
exact; otherwise the product is inexact. -/
theorem product_test_finds_rounding {a b : Decimal} (ha : a.normalize = a) (hb : b.normalize = b)
    (ha0 : a.isZero = false) (hb0 : b.isZero = false) :
    trailingZeros a.mantissa b.mantissa
        = min (padicValNat 2 a.mantissa + padicValNat 2 b.mantissa)
          (padicValNat 5 a.mantissa + padicValNat 5 b.mantissa) ∧
      trailingZeros a.mantissa b.mantissa = finalZeros (a.mantissa * b.mantissa) ∧
      (∀ multiply, RoundsProducts multiply → ∀ p, multiply a b = some p →
        ((p.normalize.scale : ℤ) < a.scale + b.scale - trailingZeros a.mantissa b.mantissa ↔
          p.toRat ≠ a.toRat * b.toRat)) ∧
      RoundsProducts roundedProduct? ∧
      ∀ p, roundedProduct? a b = some p →
        a.product b = if p.toRat = a.toRat * b.toRat then .ok p else .error .inexact := by
  have hma : a.mantissa ≠ 0 := beq_eq_false_iff_ne.1 ha0
  have hmb : b.mantissa ≠ 0 := beq_eq_false_iff_ne.1 hb0
  refine ⟨trailingZeros_eq_min _ _, trailingZeros_eq_finalZeros hma hmb,
    fun multiply hmultiply p hp => ?_, roundsProducts_roundedProduct?, fun p hp => ?_⟩
  · rw [ne_eq, toRat_eq_mul_iff hmultiply hp hma hmb]
    omega
  · rw [product_of_roundedProduct? ha hb ha0 hb0 hp]
    simp only [toRat_eq_mul_iff roundsProducts_roundedProduct? hp hma hmb, ← not_lt, ite_not]

/-- The square of the least positive decimal is rounded to zero, and the test finds it out.  The
product of 2.5 and 40 is exact although the scale that it would need, less its zeros, is
negative. -/
theorem product_test_finds_rounding_extremes :
    let least : Decimal := ⟨false, 1, 28, by decide, by decide⟩
    let nothing : Decimal := ⟨false, 0, 28, by decide, by decide⟩
    let fraction : Decimal := ⟨false, 25, 1, by decide, by decide⟩
    let forty : Decimal := ⟨false, 40, 0, by decide, by decide⟩
    let hundred : Decimal := ⟨false, 1000, 1, by decide, by decide⟩
    (roundedProduct? least least = some nothing ∧ nothing.toRat ≠ least.toRat * least.toRat ∧
      least.product least = .error .inexact) ∧
    (roundedProduct? fraction forty = some hundred ∧ finalZeros (25 * 40) = 3 ∧
      hundred.toRat = fraction.toRat * forty.toRat ∧ fraction.product forty = .ok hundred) := by
  intro least nothing fraction forty hundred
  obtain ⟨-, -, htest, hrounds, hproduct⟩ :=
    product_test_finds_rounding (a := least) (b := least) (by decide) (by decide) rfl rfl
  obtain ⟨-, hzeros, htest', -, hproduct'⟩ :=
    product_test_finds_rounding (a := fraction) (b := forty) (by decide) (by decide) rfl rfl
  have hnothing : roundedProduct? least least = some nothing := by decide +kernel
  have hhundred : roundedProduct? fraction forty = some hundred := by decide +kernel
  have hcount : trailingZeros 25 40 = 3 := by decide +kernel
  have hinexact := (htest _ hrounds _ hnothing).1 (by decide +kernel)
  have hexact := not_not.1 (mt (htest' _ hrounds _ hhundred).2 (by decide +kernel))
  exact ⟨⟨hnothing, hinexact, (hproduct _ hnothing).trans (if_neg hinexact)⟩,
    hhundred, hzeros.symm.trans hcount, hexact, (hproduct' _ hhundred).trans (if_pos hexact)⟩

end Decimal

end GuardedMachine
