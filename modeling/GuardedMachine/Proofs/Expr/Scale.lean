/-
# Scale never matters

Values are compared by what they stand for: `1.0` is the same as `1`, and a negative zero the
same as plain zero.  Nothing in an evaluation tells such values apart.  Every operator gives the
same for operands that are the same, or fails in the same way, and so does a whole expression, if
its paths resolve to the same, even if its literals are written in another way.

The exception is the division that quotients come from: it gets its operands as they are written.
What is kept of its quotients does not depend on that, nor on the division
(`Decimal.quotientBy_agrees`).

`Agrees` relates two results: values that are related, or one error.  It goes through an
evaluation step by step (`Agrees.bind`), so each operator needs only to be looked at for itself.
-/
import GuardedMachine.Fields.Record
import GuardedMachine.Proofs.Decimal.Division
import GuardedMachine.Proofs.Expr.Exact
import GuardedMachine.Proofs.Expr.Paths

namespace GuardedMachine

/-! ## Results that agree -/

section Agrees

variable {α α' β β' : Type}

/-- Two results agree up to a relation: both are values and are related, or both are the same
error. -/
inductive Agrees (R : α → α' → Prop) : Except EvalError α → Except EvalError α' → Prop
  | ok {a : α} {a' : α'} : R a a' → Agrees R (.ok a) (.ok a')
  | error (e : EvalError) : Agrees R (.error e) (.error e)

variable {R : α → α' → Prop} {Q : β → β' → Prop}

/-- Going on with results that agree. -/
lemma Agrees.bind {x : Except EvalError α} {x' : Except EvalError α'}
    {F : α → Except EvalError β} {F' : α' → Except EvalError β'} (hx : Agrees R x x')
    (hF : ∀ a a', R a a' → Agrees Q (F a) (F' a')) : Agrees Q (x.bind F) (x'.bind F') := by
  cases hx with
  | ok ha => exact hF _ _ ha
  | error e => exact .error e

lemma Agrees.map {x : Except EvalError α} {x' : Except EvalError α'} {f : α → β} {f' : α' → β'}
    (hx : Agrees R x x') (hf : ∀ a a', R a a' → Q (f a) (f' a')) :
    Agrees Q (x.map f) (x'.map f') := by
  cases hx with
  | ok ha => exact .ok (hf _ _ ha)
  | error e => exact .error e

lemma Agrees.refl {R : α → α → Prop} (hR : ∀ a, R a a) (x : Except EvalError α) :
    Agrees R x x := by
  cases x with
  | ok a => exact .ok (hR a)
  | error e => exact .error e

end Agrees

/-- Two values stand for the same. -/
def Value.Same (v w : Value) : Prop := v.same w = true

instance (v w : Value) : Decidable (v.Same w) := inferInstanceAs (Decidable (v.same w = true))

/-- Two decimals stand for the same number. -/
def Decimal.SameNumber (a b : Decimal) : Prop := a.toRat = b.toRat

lemma Decimal.SameNumber.refl (a : Decimal) : a.SameNumber a := rfl

/-! ## Operators -/

section Operators

variable {v v' w w' : Value} {a a' b b' : Decimal}

lemma Value.Same.exact_eq (h : v.Same v') : v.exact = v'.exact := (v.same_iff v').1 h

lemma Value.same_of_sameNumber (h : a.SameNumber a') : (Value.decimal a).Same (.decimal a') :=
  (Decimal.sameNumber_iff a a').2 h

lemma Value.Same.refl (v : Value) : v.Same v := v.same_refl

/-- Values that are the same are the same operand of a connective, or the same mistake. -/
lemma Operator.agrees_expectBool (operator : Operator) (h : v.Same v') :
    Agrees Eq (operator.expectBool v) (operator.expectBool v') := by
  have hkind : v.kind = v'.kind := Value.kind_eq_of_same h
  cases v <;> cases v' <;> cases hkind
  case bool.bool b b' => exact .ok (beq_iff_eq.1 h)
  all_goals exact .error _

/-- Values that are the same are operands with the same number, or the same mistake. -/
lemma Operator.agrees_expectDecimal (operator : Operator) (h : v.Same v') :
    Agrees Decimal.SameNumber (operator.expectDecimal v) (operator.expectDecimal v') := by
  have hkind : v.kind = v'.kind := Value.kind_eq_of_same h
  cases v <;> cases v' <;> cases hkind
  case decimal.decimal d d' => exact .ok ((Decimal.sameNumber_iff d d').1 h)
  all_goals exact .error _

lemma UnaryOp.agrees_apply (op : UnaryOp) (h : v.Same v') :
    Agrees Value.Same (op.apply v) (op.apply v') := by
  cases op with
  | not =>
    refine (Operator.agrees_expectBool (.unary .not) h).map fun b b' hb => ?_
    rw [hb]
    exact Value.Same.refl _
  | neg =>
    refine (Operator.agrees_expectDecimal (.unary .neg) h).map fun d d' hd => ?_
    refine Value.same_of_sameNumber ?_
    rw [Decimal.SameNumber, Decimal.toRat_neg, Decimal.toRat_neg, hd]

/-- Arithmetic gives the same number for operands with the same numbers, or fails in one way.  Only
a quotient may be written differently, and the two divisions need not be the same. -/
lemma ArithOp.agrees_applyBy {divide divide' : Decimal → Decimal → Option Decimal}
    (hdivide : Decimal.RoundsQuotients divide) (hdivide' : Decimal.RoundsQuotients divide')
    (op : ArithOp) (ha : a.SameNumber a') (hb : b.SameNumber b') :
    Agrees Decimal.SameNumber (op.applyBy divide a b) (op.applyBy divide' a' b') := by
  cases op with
  | add =>
    rw [applyBy, applyBy, Decimal.sum_eq ha hb]
    exact Agrees.refl Decimal.SameNumber.refl _
  | sub =>
    rw [applyBy, applyBy, Decimal.difference_eq ha hb]
    exact Agrees.refl Decimal.SameNumber.refl _
  | mul =>
    rw [applyBy, applyBy, Decimal.product_eq ha hb]
    exact Agrees.refl Decimal.SameNumber.refl _
  | div =>
    rw [applyBy, applyBy]
    rcases Decimal.quotientBy_agrees hdivide hdivide' ha hb with
      ⟨q, q', hq, hq', hvalue⟩ | ⟨failure, hfails, hfails'⟩
    · rw [hq, hq']
      exact .ok hvalue
    · rw [hfails, hfails']
      exact .error _

lemma OrderOp.holds_eq_of_sameNumber (op : OrderOp) (ha : a.SameNumber a')
    (hb : b.SameNumber b') : op.holds a b = op.holds a' b' := by
  have ha : a.toRat = a'.toRat := ha
  have hb : b.toRat = b'.toRat := hb
  rw [holds_eq, holds_eq, ha, hb]

lemma EqualityOp.holds_eq_of_same (op : EqualityOp) (hv : v.Same v') (hw : w.Same w') :
    op.holds v w = op.holds v' w' := by
  rw [holds_eq, holds_eq, hv.exact_eq, hw.exact_eq]

end Operators

/-! ## Expressions -/

namespace Expr

variable {σ κ σ' κ' : Type} [HasFields σ] [HasFields κ] [HasFields σ'] [HasFields κ']
  {divide divide' : Decimal → Decimal → Option Decimal} {b : Bindings σ κ} {b' : Bindings σ' κ'}

section Binary

variable {l l' r r' : Expr}
  (hl : Agrees Value.Same (l.evaluateBy divide b).result (l'.evaluateBy divide' b').result)
  (hr : Agrees Value.Same (r.evaluateBy divide b).result (r'.evaluateBy divide' b').result)

include hl hr

lemma agrees_arith (hdivide : Decimal.RoundsQuotients divide)
    (hdivide' : Decimal.RoundsQuotients divide') (op : ArithOp) :
    Agrees Value.Same ((binary (.arith op) l r).evaluateBy divide b).result
      ((binary (.arith op) l' r').evaluateBy divide' b').result := by
  simp only [evaluateBy, Evaluation.result_bind, Evaluation.result_ofResult]
  refine hl.bind fun v v' hv => (Operator.agrees_expectDecimal _ hv).bind fun x x' hx => ?_
  refine hr.bind fun w w' hw => (Operator.agrees_expectDecimal _ hw).bind fun y y' hy => ?_
  exact (op.agrees_applyBy hdivide hdivide' hx hy).map fun d d' => Value.same_of_sameNumber

lemma agrees_order (op : OrderOp) :
    Agrees Value.Same ((binary (.order op) l r).evaluateBy divide b).result
      ((binary (.order op) l' r').evaluateBy divide' b').result := by
  simp only [evaluateBy, Evaluation.result_bind, Evaluation.result_ofResult]
  refine hl.bind fun v v' hv => (Operator.agrees_expectDecimal _ hv).bind fun x x' hx => ?_
  refine hr.bind fun w w' hw => (Operator.agrees_expectDecimal _ hw).bind fun y y' hy => ?_
  rw [op.holds_eq_of_sameNumber hx hy]
  exact .ok (Value.Same.refl _)

lemma agrees_equality (op : EqualityOp) :
    Agrees Value.Same ((binary (.equality op) l r).evaluateBy divide b).result
      ((binary (.equality op) l' r').evaluateBy divide' b').result := by
  simp only [evaluateBy, Evaluation.result_bind]
  refine hl.bind fun v v' hv => hr.bind fun w w' hw => ?_
  rw [op.holds_eq_of_same hv hw]
  exact .ok (Value.Same.refl _)

lemma agrees_logic (op : LogicOp) :
    Agrees Value.Same ((binary (.logic op) l r).evaluateBy divide b).result
      ((binary (.logic op) l' r').evaluateBy divide' b').result := by
  simp only [evaluateBy]
  rw [Evaluation.result_bind, Evaluation.result_bind]
  refine hl.bind fun v v' hv => ?_
  rw [Evaluation.result_bind, Evaluation.result_bind]
  refine (Operator.agrees_expectBool _ hv).bind fun x x' hx => ?_
  subst hx
  -- both evaluations leave the right operand alone, or neither does
  by_cases hdecided : x = op.decider
  · rw [if_pos hdecided, if_pos hdecided]
    exact .ok (Value.Same.refl _)
  · rw [if_neg hdecided, if_neg hdecided]
    simp only [Evaluation.result_bind, Evaluation.result_ofResult]
    refine hr.bind fun w w' hw => (Operator.agrees_expectBool _ hw).bind fun y y' hy => ?_
    rw [hy]
    exact .ok (Value.Same.refl _)

end Binary

/-- Expressions that are the same, under bindings that resolve their paths alike, agree.  The two
evaluations may divide differently. -/
lemma evaluateBy_agrees (hdivide : Decimal.RoundsQuotients divide)
    (hdivide' : Decimal.RoundsQuotients divide') (e e' : Expr) (hsame : e.same e' = true)
    (hpaths : ∀ p ∈ e.paths, Agrees Value.Same (b.resolve p) (b'.resolve p)) :
    Agrees Value.Same (e.evaluateBy divide b).result (e'.evaluateBy divide' b').result := by
  induction e generalizing e' with
  | literal v =>
    obtain ⟨w, rfl, hw⟩ := exists_of_same_literal hsame
    exact .ok hw
  | path p =>
    obtain rfl := eq_of_same_path hsame
    exact hpaths p (List.mem_singleton_self p)
  | unary op operand ih =>
    obtain ⟨operand', rfl, hoperand⟩ := exists_of_same_unary hsame
    have hagrees := ih operand' hoperand hpaths
    simp only [evaluateBy, Evaluation.result_bind, Evaluation.result_ofResult]
    exact hagrees.bind fun v v' hv => op.agrees_apply hv
  | binary op left right ihl ihr =>
    obtain ⟨left', right', rfl, hleft, hright⟩ := exists_of_same_binary hsame
    have hl := ihl left' hleft fun p hp => hpaths p (List.mem_append_left _ hp)
    have hr := ihr right' hright fun p hp => hpaths p (List.mem_append_right _ hp)
    cases op with
    | arith op => exact agrees_arith hl hr hdivide hdivide' op
    | order op => exact agrees_order hl hr op
    | equality op => exact agrees_equality hl hr op
    | logic op => exact agrees_logic hl hr op

/-- The value of an expression does not depend on the division, nor does its error, if there is
one. -/
lemma evaluate_agrees_evaluateBy (hdivide : Decimal.RoundsQuotients divide) (b : Bindings σ κ)
    (e : Expr) : Agrees Value.Same (e.evaluate b).result (e.evaluateBy divide b).result :=
  evaluateBy_agrees Decimal.roundsQuotients_roundedQuotient? hdivide e e e.same_refl
    fun p _ => Agrees.refl Value.Same.refl (b.resolve p)

/-- **Scale never matters.**  Two expressions that are the same up to the scale and the sign of
zero of their literals have the same paths; and if each of these resolves under both bindings to
values that are the same, or to the same error, then so do the two expressions.

The division that the quotients come from, which is `roundedQuotient?` in `Expr.evaluate`, gets its
operands as they are written, and may write its quotient in any scale.  All that is assumed of it is
that it does not round what decimals hold, and that it has no quotient if and only if the exact one
is out of range. -/
theorem evaluate_agrees_of_same (divide : Decimal → Decimal → Option Decimal)
    (hdivide : Decimal.RoundsQuotients divide) (e e' : Expr) (b : Bindings σ κ)
    (b' : Bindings σ' κ') (hsame : e.same e' = true)
    (hpaths : ∀ p ∈ e.paths, Agrees Value.Same (b.resolve p) (b'.resolve p)) :
    e'.paths = e.paths ∧
      Agrees Value.Same (e.evaluateBy divide b).result (e'.evaluateBy divide b').result :=
  ⟨paths_eq_of_same hsame, evaluateBy_agrees hdivide hdivide e e' hsame hpaths⟩

/-- The expressions `-#.n < 1.0 / 1` and `-#.n < 1 / 1.00`, where the field holds `0.00` in one
subject and a negative zero in the other.  The quotients are `1.0` and `1`. -/
theorem evaluate_agrees_of_same_zero :
    let n : Path := ⟨.subject, ["n"]⟩
    let b : Bindings Dictionary Unit :=
      ⟨some ⟨[("n", .decimal ⟨false, 0, 2, by decide, by decide⟩)]⟩, none⟩
    let b' : Bindings Dictionary Unit :=
      ⟨some ⟨[("n", .decimal ⟨true, 0, 0, by decide, by decide⟩)]⟩, none⟩
    let one : Decimal := ⟨false, 1, 0, by decide, by decide⟩
    let one₁ : Decimal := ⟨false, 10, 1, by decide, by decide⟩
    let one₂ : Decimal := ⟨false, 100, 2, by decide, by decide⟩
    let below (a b : Decimal) : Expr := .binary (.order .less) (.unary .neg (.path n))
      (.binary (.arith .div) (.literal (.decimal a)) (.literal (.decimal b)))
    let e := below one₁ one
    let e' := below one one₂
    ArithOp.div.apply one₁ one = .ok one₁ ∧ ArithOp.div.apply one one₂ = .ok one ∧
      Decimal.RoundsQuotients Decimal.roundedQuotient? ∧ e.same e' = true ∧
      (∀ p ∈ e.paths, Agrees Value.Same (b.resolve p) (b'.resolve p)) ∧
      e'.paths = e.paths ∧ Agrees Value.Same (e.evaluate b).result (e'.evaluate b').result := by
  intro n b b' one one₁ one₂ below e e'
  have hsame : e.same e' = true := by decide
  have hpaths : ∀ p ∈ e.paths, Agrees Value.Same (b.resolve p) (b'.resolve p) := by
    intro p hp
    obtain rfl : p = n := List.mem_singleton.1 hp
    have hzero : (Value.decimal ⟨false, 0, 2, by decide, by decide⟩).Same
        (.decimal ⟨true, 0, 0, by decide, by decide⟩) := by decide
    exact .ok hzero
  have hdivide := Decimal.roundsQuotients_roundedQuotient?
  exact ⟨by decide +kernel, by decide +kernel, hdivide, hsame, hpaths,
    evaluate_agrees_of_same Decimal.roundedQuotient? hdivide e e' b b' hsame hpaths⟩

end Expr

/-- The answer of a guard, or its error, does not depend on the division. -/
theorem Statement.result_holds_eq_holdsBy {σ κ : Type} [HasFields σ] [HasFields κ]
    {divide : Decimal → Decimal → Option Decimal} (hdivide : Decimal.RoundsQuotients divide)
    (s : Statement) (b : Bindings σ κ) : (s.holds b).result = (s.holdsBy divide b).result := by
  have hagrees := s.expr.evaluate_agrees_evaluateBy hdivide b
  rw [Expr.evaluate] at hagrees
  rw [holds, holdsBy, holdsBy, Evaluation.result_bind, Evaluation.result_bind]
  generalize (s.expr.evaluateBy Decimal.roundedQuotient? b).result = x at hagrees ⊢
  generalize (s.expr.evaluateBy divide b).result = y at hagrees ⊢
  cases hagrees with
  | @ok v w hsame =>
    have hkind : v.kind = w.kind := Value.kind_eq_of_same hsame
    cases v <;> cases w <;> cases hkind
    case ok.bool.bool.refl answer answer' =>
      obtain rfl : answer = answer' := beq_iff_eq.1 hsame
      rfl
    all_goals rfl
  | error e => rfl

end GuardedMachine
