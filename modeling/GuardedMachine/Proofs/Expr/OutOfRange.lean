/-
# How arithmetic fails

When the exact result of an operation is defined and decimals do not hold it, the operation fails
in one of two ways.  Which one depends on the exact result and on the operator: an integer is no
sum of decimals only because it is out of range, but a product is out of range only from half a
unit above the greatest mantissa on, whether it is an integer or not (`ArithOp.OutOfRange`).

The error names the operator as the expression has it.  That a quotient fails because it does not
multiply back to the dividend makes no difference: it is the quotient that is inexact, not the
product.
-/
import Mathlib.Data.Nat.Prime.Int
import GuardedMachine.Proofs.Expr.Arithmetic

namespace GuardedMachine

open Decimal

/-- How an evaluation error names the operator that failed. -/
def EvalError.operatorSymbol? : EvalError → Option String
  | .typeMismatch operator _ _ => some operator.symbol
  | .overflow op => some op.symbol
  | .inexact op => some op.symbol
  | _ => none

/-- An expression whose operands are decimals has the result of the operator. -/
lemma Expr.result_evaluate_arith {σ κ : Type} [HasFields σ] [HasFields κ]
    {bindings : Bindings σ κ} {left right : Expr} {a b : Decimal}
    (hleft : (left.evaluate bindings).result = .ok (.decimal a))
    (hright : (right.evaluate bindings).result = .ok (.decimal b)) (op : ArithOp) :
    ((Expr.binary (.arith op) left right).evaluate bindings).result
      = (op.apply a b).map .decimal := by
  rw [evaluate] at hleft hright ⊢
  simp only [evaluateBy, Evaluation.result_bind, Evaluation.result_ofResult, hleft, hright]
  rfl

namespace ArithOp

/-- Whether an exact result that decimals do not hold is out of range: for a sum or a difference,
that it is an integer; for a product or a quotient, that it is half a unit or more above the
greatest mantissa. -/
def OutOfRange (x : ℚ) : ArithOp → Prop
  | .add | .sub => ∃ n : ℤ, x = n
  | .mul | .div => 2 ^ 96 - 1 + 1 / 2 ≤ |x|

variable {op : ArithOp} {a b : Decimal} {x : ℚ}

/-- What is out of range is above the greatest mantissa. -/
lemma OutOfRange.lt_abs (h : op.OutOfRange x) (hx : ¬ Representable x) : 2 ^ 96 - 1 < |x| := by
  have of_int (hint : ∃ n : ℤ, x = n) : 2 ^ 96 - 1 < |x| := by
    obtain ⟨n, rfl⟩ := hint
    exact not_le.1 fun hle => hx (representable_of_int hle)
  have of_beyond (hbeyond : Beyond x) : 2 ^ 96 - 1 < |x| :=
    lt_of_lt_of_le (by norm_num) hbeyond
  cases op with
  | add => exact of_int h
  | sub => exact of_int h
  | mul => exact of_beyond h
  | div => exact of_beyond h

lemma mapError_eq_overflow_iff {r : Except Failure Decimal} :
    r.mapError op.error = .error (.overflow op) ↔ r = .error .overflow := by
  rcases r with failure | d
  · cases failure <;> simp [Except.mapError, error]
  · simp [Except.mapError]

lemma apply_eq_overflow_iff (hx : op.exact a.toRat b.toRat = .ok x) (h : ¬ Representable x) :
    op.apply a b = .error (.overflow op) ↔ op.OutOfRange x := by
  refine Iff.trans mapError_eq_overflow_iff ?_
  cases op with
  | add =>
    obtain rfl := Except.ok.inj hx
    exact sum_overflow_iff h
  | sub =>
    obtain rfl := Except.ok.inj hx
    exact difference_overflow_iff h
  | mul =>
    obtain rfl := Except.ok.inj hx
    exact product_overflow_iff
  | div =>
    obtain ⟨hb, rfl⟩ := exact_div_eq_ok_iff.1 hx
    exact quotientBy_overflow_iff roundsQuotients_roundedQuotient? hb

/-- A failure of an operation other than a division by zero is one of two. -/
lemma mapError_cases {r : Except Failure Decimal} (hok : ¬ ∃ c, r = .ok c)
    (hzero : r ≠ .error .divisionByZero) :
    r.mapError op.error = .error (.overflow op) ∨ r.mapError op.error = .error (.inexact op) := by
  rcases r with failure | d
  · cases failure with
    | overflow => exact Or.inl rfl
    | inexact => exact Or.inr rfl
    | divisionByZero => exact absurd rfl hzero
  · exact absurd ⟨d, rfl⟩ hok

/-- What decimals do not hold is refused. -/
lemma apply_cases (hx : op.exact a.toRat b.toRat = .ok x) (h : ¬ Representable x) :
    op.apply a b = .error (.overflow op) ∨ op.apply a b = .error (.inexact op) := by
  have hzero : op.apply a b ≠ .error .divisionByZero := by
    intro hfails
    obtain ⟨rfl, hb⟩ := apply_eq_divisionByZero_iff.1 hfails
    exact (exact_div_eq_ok_iff.1 hx).1 hb
  refine mapError_cases ?_ (mt mapError_eq_divisionByZero_iff.2 hzero)
  intro hok
  obtain ⟨r, hr⟩ : ∃ r, op.apply a b = .ok r := exists_mapError_ok hok
  have hvalue := (op.tracks_exact roundedQuotient? a b).eq_ok hr
  rw [hx] at hvalue
  obtain rfl := Except.ok.inj hvalue
  exact h (representable_toRat r)

/-- Every division fails alike. -/
lemma mapError_quotientBy_eq {divide : Decimal → Decimal → Option Decimal}
    (hdivide : RoundsQuotients divide) (hx : ArithOp.div.exact a.toRat b.toRat = .ok x)
    (h : ¬ Representable x) :
    (quotientBy divide a b).mapError ArithOp.div.error = ArithOp.div.apply a b := by
  obtain ⟨hb, rfl⟩ := exact_div_eq_ok_iff.1 hx
  rw [apply, applyBy]
  rcases quotientBy_agrees (a := a) (b := b) hdivide roundsQuotients_roundedQuotient? rfl rfl with
    ⟨q, -, hq, -⟩ | ⟨failure, hfails, hfails'⟩
  · exact absurd ((quotientBy_ok_iff hdivide.exact hb).1 ⟨q, hq⟩) h
  · rw [hfails, hfails']

/-- **Which error arithmetic reports.**  When decimals do not hold the exact result, the operation
fails: it overflows if the result is out of range, and is inexact otherwise.  The error of an
expression is that of its operator and names it as it is written.

A quotient from a division that may round, kept only if it multiplies back to the dividend, fails
in the same way and names the division, whatever goes wrong when it is multiplied back. -/
theorem apply_error_iff_outOfRange (op : ArithOp) (a b : Decimal) (x : ℚ)
    (hx : op.exact a.toRat b.toRat = .ok x) (h : ¬ Representable x) :
    (op.apply a b = .error (.overflow op) ↔ op.OutOfRange x) ∧
    (op.apply a b = .error (.inexact op) ↔ ¬ op.OutOfRange x) ∧
    (op.OutOfRange x → 2 ^ 96 - 1 < |x|) ∧
    (∀ (σ κ : Type) [HasFields σ] [HasFields κ] (bindings : Bindings σ κ) (left right : Expr),
      (left.evaluate bindings).result = .ok (.decimal a) →
      (right.evaluate bindings).result = .ok (.decimal b) →
        ∃ err, ((Expr.binary (.arith op) left right).evaluate bindings).result = .error err ∧
          op.apply a b = .error err ∧ err.operatorSymbol? = some op.symbol) ∧
    (∀ divide, RoundsQuotients divide → op = .div →
      (quotientBy divide a b).mapError op.error = op.apply a b) := by
  have hrange := apply_eq_overflow_iff hx h
  have hcases := apply_cases hx h
  refine ⟨hrange, ?_, fun hout => hout.lt_abs h, ?_, ?_⟩
  · rw [← hrange]
    constructor
    · intro hinexact hoverflow
      cases hinexact.symm.trans hoverflow
    · exact hcases.resolve_left
  · intro σ κ _ _ bindings left right hleft hright
    obtain ⟨err, herr, hname⟩ :
        ∃ err, op.apply a b = .error err ∧ err.operatorSymbol? = some op.symbol := by
      rcases hcases with hoverflow | hinexact
      · exact ⟨_, hoverflow, rfl⟩
      · exact ⟨_, hinexact, rfl⟩
    refine ⟨err, ?_, herr, hname⟩
    rw [Expr.result_evaluate_arith hleft hright, herr]
    rfl
  · rintro divide hdivide rfl
    exact mapError_quotientBy_eq hdivide hx h

/-- Ten divided by three is no decimal: the rounded quotient has so many digits that three times
as much has none either, and what is reported is an inexact division. -/
theorem apply_error_iff_outOfRange_third :
    let ten : Decimal := ⟨false, 10, 0, by decide, by decide⟩
    let three : Decimal := ⟨false, 3, 0, by decide, by decide⟩
    ArithOp.div.exact ten.toRat three.toRat = .ok (10 / 3) ∧ ¬ Representable (10 / 3) ∧
    RoundsQuotients roundedQuotient? ∧
    (Expr.binary (.arith .div) (.literal (.decimal ten)) (.literal (.decimal three)) |>.evaluate
      (Bindings.none : Bindings Unit Unit)).result = .error (.inexact .div) ∧
    (EvalError.inexact .div).operatorSymbol? = some "/" ∧
    (quotientBy roundedQuotient? ten three).mapError ArithOp.div.error
      = .error (.inexact .div) := by
  intro ten three
  have hx : ArithOp.div.exact ten.toRat three.toRat = .ok (10 / 3) := by
    have hten : ten.toRat = 10 := by norm_num [ten, toRat, coefficient]
    have hthree : three.toRat = 3 := by norm_num [three, toRat, coefficient]
    rw [hten, hthree]
    exact exact_div_eq_ok_iff.2 ⟨by norm_num, rfl⟩
  have h : ¬ Representable (10 / 3) := by
    rintro ⟨m, s, -, -, hm⟩
    -- a power of ten is no multiple of three
    rw [div_eq_div_iff (by norm_num) (by positivity)] at hm
    have hmul : (10 : ℤ) * 10 ^ s = m * 3 := by exact_mod_cast hm
    have hdvd : (3 : ℤ) ∣ 10 ^ (s + 1) := ⟨m, by rw [pow_succ', hmul, mul_comm]⟩
    have hprime : Prime (3 : ℤ) := Int.prime_three
    exact absurd (hprime.dvd_of_dvd_pow hdvd) (by decide)
  obtain ⟨-, hinexact, -, hexpr, hdivision⟩ := apply_error_iff_outOfRange .div ten three _ hx h
  have hout : ¬ ArithOp.div.OutOfRange (10 / 3) := by norm_num [OutOfRange, abs_of_pos]
  obtain ⟨err, herr, happly, hname⟩ := hexpr Unit Unit .none (.literal (.decimal ten))
    (.literal (.decimal three)) rfl rfl
  obtain rfl : err = .inexact .div := Except.error.inj (happly.symm.trans (hinexact.2 hout))
  refine ⟨hx, h, roundsQuotients_roundedQuotient?, herr, hname, ?_⟩
  rw [hdivision _ roundsQuotients_roundedQuotient? rfl, happly]

end ArithOp

end GuardedMachine
