/-
# Evaluation never rounds

The expressions are evaluated here once more, on rational numbers of any size.  Nothing can
overflow and nothing is inexact on these; paths, kinds, the order of the operands and the
connectives are as the language has them.

Evaluation on decimals tracks it: either both end in the same way, with a decimal that stands
for the number, or the decimals run out of digits, which is reported as such.  A division may
round; it tracks because its quotient is multiplied back (`Decimal.quotientBy`).  What is tracked
is closed under doing one thing after the other (`Tracks.bind`), so the induction over the
expression only has to look at the operators.
-/
import GuardedMachine.Proofs.Decimal.Exact
import GuardedMachine.Statement.Basic

namespace GuardedMachine

/-! ## Values with exact numbers -/

/-- A value, with a rational number in place of a decimal. -/
inductive ExactValue
  | null
  | bool (b : Bool)
  | number (q : ℚ)
  | string (s : String)
deriving DecidableEq

/-- The kind of a value with an exact number. -/
def ExactValue.kind : ExactValue → Kind
  | .null => .null
  | .bool _ => .boolean
  | .number _ => .decimal
  | .string _ => .string

/-- What a value stands for. -/
def Value.exact : Value → ExactValue
  | .null => .null
  | .bool b => .bool b
  | .decimal d => .number d.toRat
  | .string s => .string s

lemma Value.same_iff (v w : Value) : v.same w = true ↔ v.exact = w.exact := by
  cases v <;> cases w <;> simp [same, exact, Decimal.sameNumber_iff]

lemma Value.exact_eq_bool {v : Value} {b : Bool} : v.exact = .bool b ↔ v = .bool b := by
  cases v <;> simp [exact]

/-! ## Evaluation on rational numbers -/

/-- The boolean that an operand has to be. -/
def Operator.exactBool (operator : Operator) : ExactValue → Except EvalError Bool
  | .bool b => .ok b
  | x => .error (.typeMismatch operator .boolean x.kind)

/-- The number that an operand has to be. -/
def Operator.exactNumber (operator : Operator) : ExactValue → Except EvalError ℚ
  | .number q => .ok q
  | x => .error (.typeMismatch operator .decimal x.kind)

/-- Arithmetic on rational numbers. -/
def ArithOp.exact (p q : ℚ) : ArithOp → Except EvalError ℚ
  | .add => .ok (p + q)
  | .sub => .ok (p - q)
  | .mul => .ok (p * q)
  | .div => if q = 0 then .error .divisionByZero else .ok (p / q)

/-- Whether an ordering holds of rational numbers. -/
def OrderOp.exact (p q : ℚ) : OrderOp → Bool
  | .less => p < q
  | .atMost => p ≤ q
  | .greater => q < p
  | .atLeast => q ≤ p

/-- Whether an equality holds of values with exact numbers. -/
def EqualityOp.exact (x y : ExactValue) : EqualityOp → Bool
  | .equal => x = y
  | .notEqual => x ≠ y

variable {σ κ : Type} [HasFields σ] [HasFields κ]

/-- The value of an expression, computed on rational numbers. -/
def Expr.evaluateExactly (b : Bindings σ κ) : Expr → Except EvalError ExactValue
  | .literal v => .ok v.exact
  | .path p => (b.resolve p).map Value.exact
  | .unary .not operand => do
    let x ← operand.evaluateExactly b
    let answer ← (Operator.unary .not).exactBool x
    .ok (.bool !answer)
  | .unary .neg operand => do
    let x ← operand.evaluateExactly b
    let q ← (Operator.unary .neg).exactNumber x
    .ok (.number (-q))
  | .binary (.arith op) left right => do
    let x ← left.evaluateExactly b
    let p ← (Operator.binary (.arith op)).exactNumber x
    let y ← right.evaluateExactly b
    let q ← (Operator.binary (.arith op)).exactNumber y
    let r ← op.exact p q
    .ok (.number r)
  | .binary (.order op) left right => do
    let x ← left.evaluateExactly b
    let p ← (Operator.binary (.order op)).exactNumber x
    let y ← right.evaluateExactly b
    let q ← (Operator.binary (.order op)).exactNumber y
    .ok (.bool (op.exact p q))
  | .binary (.equality op) left right => do
    let x ← left.evaluateExactly b
    let y ← right.evaluateExactly b
    .ok (.bool (op.exact x y))
  | .binary (.logic .and) left right => do
    let x ← left.evaluateExactly b
    if ← (Operator.binary (.logic .and)).exactBool x then
      let y ← right.evaluateExactly b
      let answer ← (Operator.binary (.logic .and)).exactBool y
      .ok (.bool answer)
    else
      .ok (.bool false)
  | .binary (.logic .or) left right => do
    let x ← left.evaluateExactly b
    if ← (Operator.binary (.logic .or)).exactBool x then
      .ok (.bool true)
    else
      let y ← right.evaluateExactly b
      let answer ← (Operator.binary (.logic .or)).exactBool y
      .ok (.bool answer)

/-! ## Tracking -/

/-- A result tracks an exact one through `f`: it is the same, or decimals have too few digits for
it. -/
def Tracks {α β : Type} (f : α → β) (x : Except EvalError α) (y : Except EvalError β) : Prop :=
  x.map f = y ∨ ∃ op, x = .error (.overflow op) ∨ x = .error (.inexact op)

namespace Tracks

variable {α β α' β' : Type} {f : α → β} {g : α' → β'}

lemma ok (f : α → β) (a : α) : Tracks f (.ok a) (.ok (f a)) := Or.inl rfl

lemma error (f : α → β) (e : EvalError) : Tracks f (.error e) (.error e) := Or.inl rfl

/-- Doing one thing after the other keeps track. -/
lemma bind {x : Except EvalError α} {y : Except EvalError β} {F : α → Except EvalError α'}
    {G : β → Except EvalError β'} (hx : Tracks f x y) (hF : ∀ a, Tracks g (F a) (G (f a))) :
    Tracks g (x.bind F) (y.bind G) := by
  rcases hx with rfl | ⟨op, rfl | rfl⟩
  · cases x with
    | ok a => exact hF a
    | error e => exact error g e
  · exact Or.inr ⟨op, Or.inl rfl⟩
  · exact Or.inr ⟨op, Or.inr rfl⟩

lemma map {x : Except EvalError α} {y : Except EvalError β} {F : α → α'} {G : β → β'}
    (hx : Tracks f x y) (hF : ∀ a, g (F a) = G (f a)) :
    Tracks g (x.map F) (y.bind fun a => .ok (G a)) := by
  rcases hx with rfl | ⟨op, rfl | rfl⟩
  · cases x with
    | ok a => exact Or.inl (congrArg Except.ok (hF a))
    | error e => exact error g e
  · exact Or.inr ⟨op, Or.inl rfl⟩
  · exact Or.inr ⟨op, Or.inr rfl⟩

end Tracks

lemma tracks_exactBool (operator : Operator) (v : Value) :
    Tracks id (operator.expectBool v) (operator.exactBool v.exact) := by
  cases v
  · exact Tracks.error id _
  · exact Tracks.ok id _
  · exact Tracks.error id _
  · exact Tracks.error id _

lemma tracks_exactNumber (operator : Operator) (v : Value) :
    Tracks Decimal.toRat (operator.expectDecimal v) (operator.exactNumber v.exact) := by
  cases v
  · exact Tracks.error _ _
  · exact Tracks.error _ _
  · exact Tracks.ok _ _
  · exact Tracks.error _ _

/-- An operation that is right when it gives a result, and is no quotient by zero, tracks. -/
lemma ArithOp.tracks_of_ok {op : ArithOp} {result : Except Decimal.Failure Decimal} {q : ℚ}
    (hok : ∀ c, result = .ok c → c.toRat = q) (herror : result ≠ .error .divisionByZero) :
    Tracks Decimal.toRat (result.mapError op.error) (.ok q) := by
  rcases result with failure | c
  · cases failure with
    | overflow => exact Or.inr ⟨op, Or.inl rfl⟩
    | inexact => exact Or.inr ⟨op, Or.inr rfl⟩
    | divisionByZero => exact absurd rfl herror
  · rw [← hok c rfl]
    exact Tracks.ok _ c

/-- Arithmetic on decimals tracks arithmetic on the numbers, whatever the division does. -/
lemma ArithOp.tracks_exact (divide : Decimal → Decimal → Option Decimal) (op : ArithOp)
    (a b : Decimal) :
    Tracks Decimal.toRat (op.applyBy divide a b) (op.exact a.toRat b.toRat) := by
  cases op with
  | add => exact tracks_of_ok (fun c => Decimal.toRat_of_sum) (a.sum_ne_divisionByZero b)
  | sub =>
    exact tracks_of_ok (fun c => Decimal.toRat_of_difference) (a.sum_ne_divisionByZero (-b))
  | mul => exact tracks_of_ok (fun c => Decimal.toRat_of_product) (a.product_ne_divisionByZero b)
  | div =>
    by_cases hb : b.toRat = 0
    · rw [ArithOp.exact, if_pos hb, applyBy, Decimal.quotientBy_divisionByZero_iff.2 hb]
      exact Tracks.error _ _
    · rw [ArithOp.exact, if_neg hb]
      exact tracks_of_ok (fun c => Decimal.toRat_of_quotientBy)
        (mt Decimal.quotientBy_divisionByZero_iff.1 hb)

lemma OrderOp.holds_eq (op : OrderOp) (a b : Decimal) :
    op.holds a b = op.exact a.toRat b.toRat := by
  rw [Bool.eq_iff_iff]
  cases op <;> simp only [holds, OrderOp.exact, Decimal.less_iff, Decimal.atMost_iff,
    decide_eq_true_iff]

lemma EqualityOp.holds_eq (op : EqualityOp) (v w : Value) :
    op.holds v w = op.exact v.exact w.exact := by
  rw [Bool.eq_iff_iff]
  cases op <;> simp only [holds, EqualityOp.exact, Bool.not_eq_true', ← Bool.not_eq_true,
    v.same_iff w, decide_eq_true_iff, ne_eq]

/-! ## Expressions -/

namespace Expr

variable {divide : Decimal → Decimal → Option Decimal} {b : Bindings σ κ}

lemma tracks_unary (op : UnaryOp) {operand : Expr}
    (h : Tracks Value.exact (operand.evaluateBy divide b).result (operand.evaluateExactly b)) :
    Tracks Value.exact ((unary op operand).evaluateBy divide b).result
      ((unary op operand).evaluateExactly b) := by
  simp only [evaluateBy, Evaluation.result_bind, Evaluation.result_ofResult]
  cases op with
  | not =>
    refine h.bind fun v => ?_
    exact (tracks_exactBool _ v).map fun answer => rfl
  | neg =>
    refine h.bind fun v => ?_
    exact (tracks_exactNumber _ v).map fun d => congrArg ExactValue.number d.toRat_neg

lemma tracks_logic (op : LogicOp) {left right : Expr}
    (hl : Tracks Value.exact (left.evaluateBy divide b).result (left.evaluateExactly b))
    (hr : Tracks Value.exact (right.evaluateBy divide b).result (right.evaluateExactly b)) :
    Tracks Value.exact ((binary (.logic op) left right).evaluateBy divide b).result
      ((binary (.logic op) left right).evaluateExactly b) := by
  -- the right operand gives the value if it is looked at, and it is looked at in both evaluations
  -- or in neither, as the left operand is the same boolean in both
  have tracks_right (operator : Operator) :
      Tracks Value.exact
        (do
          let y ← .ofResult (operator.expectBool (← right.evaluateBy divide b))
          pure (.bool y) : Evaluation Value).result
        (do
          let y ← right.evaluateExactly b
          let answer ← operator.exactBool y
          .ok (.bool answer)) := by
    simp only [Evaluation.result_bind, Evaluation.result_ofResult]
    refine hr.bind fun w => (tracks_exactBool _ w).bind fun y => ?_
    exact Tracks.ok Value.exact (.bool y)
  simp only [evaluateBy]
  rw [Evaluation.result_bind]
  cases op with
  | and =>
    refine hl.bind fun v => ?_
    rw [Evaluation.result_bind]
    refine (tracks_exactBool _ v).bind fun x => ?_
    cases x with
    | false => exact Tracks.ok Value.exact (.bool false)
    | true => exact tracks_right _
  | or =>
    refine hl.bind fun v => ?_
    rw [Evaluation.result_bind]
    refine (tracks_exactBool _ v).bind fun x => ?_
    cases x with
    | false => exact tracks_right _
    | true => exact Tracks.ok Value.exact (.bool true)

/-- Evaluation on decimals tracks evaluation on rational numbers. -/
lemma tracks_evaluateExactly (divide : Decimal → Decimal → Option Decimal) (b : Bindings σ κ)
    (e : Expr) :
    Tracks Value.exact (e.evaluateBy divide b).result (e.evaluateExactly b) := by
  induction e with
  | literal v => exact Tracks.ok _ v
  | path p => exact Or.inl rfl
  | unary op operand ih => exact tracks_unary op ih
  | binary op left right ihl ihr =>
    cases op with
    | arith op =>
      simp only [evaluateBy, Evaluation.result_bind, Evaluation.result_ofResult]
      refine ihl.bind fun v => (tracks_exactNumber _ v).bind fun x => ?_
      refine ihr.bind fun w => (tracks_exactNumber _ w).bind fun y => ?_
      exact (op.tracks_exact divide x y).map fun d => rfl
    | order op =>
      simp only [evaluateBy, Evaluation.result_bind, Evaluation.result_ofResult]
      refine ihl.bind fun v => (tracks_exactNumber _ v).bind fun x => ?_
      refine ihr.bind fun w => (tracks_exactNumber _ w).bind fun y => ?_
      rw [OrderOp.holds_eq]
      exact Tracks.ok Value.exact (.bool _)
    | equality op =>
      simp only [evaluateBy, Evaluation.result_bind]
      refine ihl.bind fun v => ihr.bind fun w => ?_
      rw [EqualityOp.holds_eq]
      exact Tracks.ok Value.exact (.bool _)
    | logic op => exact tracks_logic op ihl ihr

/-- An ordering that has a value is decided by the numbers of its operands. -/
lemma exact_operands_of_order {op : OrderOp} {left right : Expr} {x : ExactValue}
    (h : (binary (.order op) left right).evaluateExactly b = .ok x) :
    ∃ p q, left.evaluateExactly b = .ok (.number p) ∧
      right.evaluateExactly b = .ok (.number q) ∧ x = .bool (op.exact p q) := by
  simp only [evaluateExactly] at h
  rcases hl : left.evaluateExactly b with _ | (_ | _ | p | _) <;> rw [hl] at h <;> try cases h
  rcases hr : right.evaluateExactly b with _ | (_ | _ | q | _) <;> rw [hr] at h <;> try cases h
  exact ⟨p, q, rfl, rfl, rfl⟩

/-- An equality that has a value is decided by the exact values of its operands. -/
lemma exact_operands_of_equality {op : EqualityOp} {left right : Expr} {x : ExactValue}
    (h : (binary (.equality op) left right).evaluateExactly b = .ok x) :
    ∃ y z, left.evaluateExactly b = .ok y ∧ right.evaluateExactly b = .ok z ∧
      x = .bool (op.exact y z) := by
  simp only [evaluateExactly] at h
  rcases hl : left.evaluateExactly b with _ | y <;> rw [hl] at h
  · cases h
  · rcases hr : right.evaluateExactly b with _ | z <;> rw [hr] at h
    · cases h
    · exact ⟨y, z, rfl, rfl, (Except.ok.inj h).symm⟩

end Expr

/-- The answer of a statement as a guard, computed on rational numbers. -/
def Statement.holdsExactly (s : Statement) (b : Bindings σ κ) : Except EvalError Bool := do
  match ← s.expr.evaluateExactly b with
  | .bool answer => .ok answer
  | x => .error (.notBoolean x.kind)

/-- The answer of a guard tracks the one on rational numbers. -/
lemma Statement.tracks_holdsExactly (divide : Decimal → Decimal → Option Decimal)
    (s : Statement) (b : Bindings σ κ) :
    Tracks id (s.holdsBy divide b).result (s.holdsExactly b) := by
  rw [holdsBy, Evaluation.result_bind]
  refine (s.expr.tracks_evaluateExactly divide b).bind fun v => ?_
  cases v
  · exact Tracks.error id _
  · exact Tracks.ok id _
  · exact Tracks.error id _
  · exact Tracks.error id _

/-- **Evaluation never rounds.**  A value that evaluation gives is the value on rational numbers,
and an error other than a shortage of digits is the error there; so evaluation ends like the
evaluation on rational numbers, unless it overflows or is inexact.  In particular an ordering
and an equality are decided by the exact numbers, and so is the answer of a guard.

Nothing is assumed of the division that the quotients come from, which is `roundedQuotient?` in
`Expr.evaluate`: it may round, and in any way, since a quotient that does not multiply back to the
dividend is not used. -/
theorem Expr.evaluate_never_rounds (divide : Decimal → Decimal → Option Decimal)
    (b : Bindings σ κ) (e : Expr) :
    let result := (e.evaluateBy divide b).result
    let exact := e.evaluateExactly b
    (∀ v, result = .ok v → exact = .ok v.exact) ∧
    (∀ error, result = .error error → (∀ op, error ≠ .overflow op ∧ error ≠ .inexact op) →
      exact = .error error) ∧
    (result.map Value.exact = exact ∨
      ∃ op, result = .error (.overflow op) ∨ result = .error (.inexact op)) ∧
    (∀ op left right answer, e = .binary (.order op) left right → result = .ok answer →
      ∃ p q, left.evaluateExactly b = .ok (.number p) ∧
        right.evaluateExactly b = .ok (.number q) ∧ answer = .bool (op.exact p q)) ∧
    (∀ op left right answer, e = .binary (.equality op) left right → result = .ok answer →
      ∃ x y, left.evaluateExactly b = .ok x ∧ right.evaluateExactly b = .ok y ∧
        answer = .bool (op.exact x y)) ∧
    (∀ guard : Statement, guard.expr = e →
      (guard.holdsBy divide b).result = guard.holdsExactly b ∨
        ∃ op, (guard.holdsBy divide b).result = .error (.overflow op) ∨
          (guard.holdsBy divide b).result = .error (.inexact op)) := by
  intro result exact
  have htracks : Tracks Value.exact result exact := e.tracks_evaluateExactly divide b
  have hvalue (v : Value) (hv : result = .ok v) : exact = .ok v.exact := by
    rcases htracks with h | ⟨op, h | h⟩
    · rw [← h, hv]
      rfl
    · cases hv.symm.trans h
    · cases hv.symm.trans h
  refine ⟨hvalue, fun error herror hdigits => ?_, htracks, ?_, ?_, ?_⟩
  · rcases htracks with h | ⟨op, h | h⟩
    · rw [← h, herror]
      rfl
    · exact absurd (Except.error.inj (herror.symm.trans h)) (hdigits op).1
    · exact absurd (Except.error.inj (herror.symm.trans h)) (hdigits op).2
  · rintro op left right answer rfl hanswer
    obtain ⟨p, q, hl, hr, heq⟩ := exact_operands_of_order (hvalue answer hanswer)
    exact ⟨p, q, hl, hr, Value.exact_eq_bool.1 heq⟩
  · rintro op left right answer rfl hanswer
    obtain ⟨x, y, hl, hr, heq⟩ := exact_operands_of_equality (hvalue answer hanswer)
    exact ⟨x, y, hl, hr, Value.exact_eq_bool.1 heq⟩
  · rintro guard rfl
    have hguard := guard.tracks_holdsExactly divide b
    rwa [Tracks, Except.map_id, id_eq] at hguard

end GuardedMachine
