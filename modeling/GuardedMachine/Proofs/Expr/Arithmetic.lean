/-
# When arithmetic succeeds

An arithmetic operation has a result if and only if the exact number is defined and decimals hold
it; then the result stands for that number.  Only a division by zero is undefined.

Which division the quotients come from does not matter: any one that does not round what decimals
hold, together with the test that its quotient multiplies back to the dividend, succeeds for the
same operands and with the same number.
-/
import GuardedMachine.Proofs.Decimal.Division
import GuardedMachine.Proofs.Expr.Exact

namespace GuardedMachine

open Decimal

lemma Tracks.eq_ok {α β : Type} {f : α → β} {x : Except EvalError α} {y : Except EvalError β}
    {a : α} (h : Tracks f x y) (hx : x = .ok a) : y = .ok (f a) := by
  rcases h with h | ⟨op, h | h⟩
  · rw [← h, hx]
    rfl
  · cases hx.symm.trans h
  · cases hx.symm.trans h

namespace ArithOp

variable {op : ArithOp} {a b : Decimal}

lemma exact_div_eq_ok_iff {p q x : ℚ} : ArithOp.div.exact p q = .ok x ↔ q ≠ 0 ∧ x = p / q := by
  rw [exact]
  split
  · rename_i hq
    simp [hq]
  · rename_i hq
    rw [Except.ok.injEq, eq_comm, and_iff_right hq]

/-- To name the operator in a failure makes no difference to a result. -/
lemma exists_mapError_ok {x : Except Failure Decimal} (h : ∃ r, x = .ok r) :
    ∃ r, x.mapError op.error = .ok r := by
  obtain ⟨r, rfl⟩ := h
  exact ⟨r, rfl⟩

lemma mapError_eq_divisionByZero_iff {x : Except Failure Decimal} :
    x.mapError op.error = .error .divisionByZero ↔ x = .error .divisionByZero := by
  rcases x with failure | r
  · cases failure <;> simp [Except.mapError, error]
  · simp [Except.mapError]

/-- What decimals hold is computed. -/
lemma exists_apply_ok {x : ℚ} (hx : op.exact a.toRat b.toRat = .ok x) (h : Representable x) :
    ∃ r, op.apply a b = .ok r := by
  refine exists_mapError_ok ?_
  cases op with
  | add =>
    obtain rfl := Except.ok.inj hx
    exact (sum_ok_iff a b).2 h
  | sub =>
    obtain rfl := Except.ok.inj hx
    exact (difference_ok_iff a b).2 h
  | mul =>
    obtain rfl := Except.ok.inj hx
    exact (product_ok_iff a b).2 h
  | div =>
    obtain ⟨hb, rfl⟩ := exact_div_eq_ok_iff.1 hx
    exact (quotientBy_ok_iff roundsQuotients_roundedQuotient?.exact hb).2 h

lemma apply_eq_divisionByZero_iff :
    op.apply a b = .error .divisionByZero ↔ op = .div ∧ b.toRat = 0 := by
  refine Iff.trans mapError_eq_divisionByZero_iff ?_
  cases op with
  | add => exact iff_of_false (sum_ne_divisionByZero a b) (by simp)
  | sub => exact iff_of_false (sum_ne_divisionByZero a (-b)) (by simp)
  | mul => exact iff_of_false (product_ne_divisionByZero a b) (by simp)
  | div => exact quotientBy_divisionByZero_iff.trans (and_iff_right rfl).symm

/-- **Arithmetic succeeds exactly when it can be exact.**  A result stands for the exact number,
and there is one if and only if the exact number is defined and an integer of 96 bits, apart from
its sign, divided by ten to the power of at most 28.  It is undefined for a division by zero, and
only then is a division by zero reported.

The same holds for the quotient from a division that does not round what decimals hold, when that
is kept only if it multiplies back to the dividend. -/
theorem apply_ok_iff_representable (op : ArithOp) (a b : Decimal) :
    (∀ r, op.apply a b = .ok r →
      op.exact a.toRat b.toRat = .ok r.toRat ∧ r.mantissa ≤ 2 ^ 96 - 1 ∧ r.scale ≤ 28) ∧
    ((∃ r, op.apply a b = .ok r) ↔
      ∃ x, op.exact a.toRat b.toRat = .ok x ∧ Representable x) ∧
    (op.apply a b = .error .divisionByZero ↔ op = .div ∧ b.toRat = 0) ∧
    (∀ divide, DividesExactly divide →
      (∀ q, quotientBy divide a b = .ok q → ArithOp.div.exact a.toRat b.toRat = .ok q.toRat) ∧
      ((∃ q, quotientBy divide a b = .ok q) ↔
        ∃ x, ArithOp.div.exact a.toRat b.toRat = .ok x ∧ Representable x) ∧
      (quotientBy divide a b = .error .divisionByZero ↔ b.toRat = 0)) := by
  have hvalue (r : Decimal) (hr : op.apply a b = .ok r) :
      op.exact a.toRat b.toRat = .ok r.toRat :=
    (op.tracks_exact roundedQuotient? a b).eq_ok hr
  refine ⟨fun r hr => ⟨hvalue r hr, maxMantissa_eq ▸ r.mantissa_le, r.scale_le⟩,
    ⟨fun ⟨r, hr⟩ => ⟨r.toRat, hvalue r hr, representable_toRat r⟩,
      fun ⟨x, hx, h⟩ => exists_apply_ok hx h⟩,
    apply_eq_divisionByZero_iff, fun divide hdivide => ?_⟩
  have hquotient (q : Decimal) (hq : quotientBy divide a b = .ok q) :
      ArithOp.div.exact a.toRat b.toRat = .ok q.toRat := by
    obtain ⟨hb, -, hvalue⟩ := quotientBy_eq_ok_iff.1 hq
    exact exact_div_eq_ok_iff.2 ⟨hb, hvalue⟩
  refine ⟨hquotient, ⟨fun ⟨q, hq⟩ => ⟨q.toRat, hquotient q hq, representable_toRat q⟩, ?_⟩,
    quotientBy_divisionByZero_iff⟩
  rintro ⟨x, hx, h⟩
  obtain ⟨hb, rfl⟩ := exact_div_eq_ok_iff.1 hx
  exact (quotientBy_ok_iff hdivide hb).2 h

/-- One divided by four is the decimal of a quarter, which multiplies back to one. -/
theorem apply_ok_iff_representable_quarter :
    let one : Decimal := ⟨false, 1, 0, by decide, by decide⟩
    let four : Decimal := ⟨false, 4, 0, by decide, by decide⟩
    DividesExactly roundedQuotient? ∧ (∃ r, ArithOp.div.apply one four = .ok r ∧ r.toRat = 1 / 4) ∧
      ∃ q, quotientBy roundedQuotient? one four = .ok q ∧ q.toRat = 1 / 4 := by
  intro one four
  have hexact : ArithOp.div.exact one.toRat four.toRat = .ok (1 / 4) := by
    have hfour : four.toRat = 4 := by norm_num [four, toRat, coefficient]
    have hone : one.toRat = 1 := by norm_num [one, toRat, coefficient]
    rw [hone, hfour]
    exact exact_div_eq_ok_iff.2 ⟨by norm_num, rfl⟩
  have hquarter : Representable (1 / 4) := ⟨25, 2, by decide, by decide, by norm_num⟩
  obtain ⟨hvalue, hok, -, hdivision⟩ := apply_ok_iff_representable .div one four
  obtain ⟨r, hr⟩ := hok.2 ⟨1 / 4, hexact, hquarter⟩
  have hdivide := roundsQuotients_roundedQuotient?.exact
  obtain ⟨hback, hbackok, -⟩ := hdivision roundedQuotient? hdivide
  obtain ⟨q, hq⟩ := hbackok.2 ⟨1 / 4, hexact, hquarter⟩
  exact ⟨hdivide,
    ⟨r, hr, Except.ok.inj ((hvalue r hr).1.symm.trans hexact)⟩,
    ⟨q, hq, Except.ok.inj ((hback q hq).symm.trans hexact)⟩⟩

end ArithOp

end GuardedMachine
