/-
# Evaluating expressions

An expression is evaluated against a subject and a context, either of which may be absent.
Operands are evaluated from left to right, each is checked before the next one is looked at,
and a connective leaves its right operand alone when the left one decides.  The first error
ends the evaluation.

The division that the quotients come from is a parameter: it may round, as every quotient is
multiplied back.  `Expr.evaluate` divides by `Decimal.roundedQuotient?`.

Besides its result an evaluation has the list of the paths that were resolved on the way, in
order; it shows what the result can depend on.
-/
import GuardedMachine.Decimal.Arithmetic
import GuardedMachine.Expr.Basic
import GuardedMachine.Fields.Basic

namespace GuardedMachine

/-- A result, or the error that came first, with the paths resolved until then. -/
structure Evaluation (α : Type) where
  /-- The paths resolved, in order. -/
  resolved : List Path
  /-- What came out. -/
  result : Except EvalError α

namespace Evaluation

variable {α β : Type}

/-- Go on with the result of an evaluation, unless it failed. -/
def andThen (x : Evaluation α) (f : α → Evaluation β) : Evaluation β :=
  match x.result with
  | .ok a => ⟨x.resolved ++ (f a).resolved, (f a).result⟩
  | .error e => ⟨x.resolved, .error e⟩

instance : Monad Evaluation where
  pure a := ⟨[], .ok a⟩
  bind := andThen

/-- The evaluation that fails. -/
def fail (e : EvalError) : Evaluation α := ⟨[], .error e⟩

/-- The evaluation that resolves no path. -/
def ofResult (result : Except EvalError α) : Evaluation α := ⟨[], result⟩

theorem pure_eq (a : α) : (pure a : Evaluation α) = ⟨[], .ok a⟩ := rfl

theorem bind_eq (x : Evaluation α) (f : α → Evaluation β) : (x >>= f) = x.andThen f := rfl

@[simp] theorem result_ofResult (result : Except EvalError α) :
    (ofResult result).result = result := rfl

@[simp] theorem result_bind (x : Evaluation α) (f : α → Evaluation β) :
    (x >>= f).result = x.result.bind fun a => (f a).result := by
  rw [bind_eq, andThen]
  cases x.result <;> rfl

end Evaluation

/-- The root objects of one evaluation. -/
structure Bindings (σ κ : Type) where
  /-- The subject, if there is one. -/
  subject : Option σ
  /-- The context, if there is one. -/
  context : Option κ

namespace Bindings

variable {σ κ : Type}

/-- The bindings without any object. -/
def none : Bindings σ κ := ⟨Option.none, Option.none⟩

/-- The value at the end of a path. -/
def resolve [HasFields σ] [HasFields κ] (b : Bindings σ κ) (p : Path) :
    Except EvalError Value :=
  match p.scope with
  | .subject => GuardedMachine.resolve b.subject p
  | .context => GuardedMachine.resolve b.context p

/-- Whether there is an object for a scope. -/
def has (b : Bindings σ κ) : Scope → Bool
  | .subject => b.subject.isSome
  | .context => b.context.isSome

end Bindings

/-! ## Operators on values -/

/-- The boolean that an operand is. -/
def Operator.expectBool (operator : Operator) (v : Value) : Except EvalError Bool :=
  match v with
  | .bool b => .ok b
  | _ => .error (.typeMismatch operator .boolean v.kind)

/-- The decimal that an operand is. -/
def Operator.expectDecimal (operator : Operator) (v : Value) : Except EvalError Decimal :=
  match v with
  | .decimal d => .ok d
  | _ => .error (.typeMismatch operator .decimal v.kind)

/-- The value of a unary operator. -/
def UnaryOp.apply (op : UnaryOp) (v : Value) : Except EvalError Value :=
  match op with
  | .not => ((Operator.unary .not).expectBool v).map fun b => .bool !b
  | .neg => ((Operator.unary .neg).expectDecimal v).map fun d => .decimal (-d)

/-- The error of an arithmetic operation that failed. -/
def ArithOp.error (op : ArithOp) : Decimal.Failure → EvalError
  | .overflow => .overflow op
  | .inexact => .inexact op
  | .divisionByZero => .divisionByZero

/-- The exact result of an arithmetic operation, with a division that may round. -/
def ArithOp.applyBy (divide : Decimal → Decimal → Option Decimal) (op : ArithOp)
    (a b : Decimal) : Except EvalError Decimal :=
  let result :=
    match op with
    | .add => a.sum b
    | .sub => a.difference b
    | .mul => a.product b
    | .div => Decimal.quotientBy divide a b
  result.mapError op.error

/-- The exact result of an arithmetic operation. -/
def ArithOp.apply (op : ArithOp) (a b : Decimal) : Except EvalError Decimal :=
  op.applyBy Decimal.roundedQuotient? a b

/-- Whether an ordering holds. -/
def OrderOp.holds (op : OrderOp) (a b : Decimal) : Bool :=
  match op with
  | .less => a.less b
  | .atMost => a.atMost b
  | .greater => b.less a
  | .atLeast => b.atMost a

/-- Whether an equality holds. -/
def EqualityOp.holds (op : EqualityOp) (v w : Value) : Bool :=
  match op with
  | .equal => v.same w
  | .notEqual => !v.same w

/-- The value of the left operand that decides a connective. -/
def LogicOp.decider : LogicOp → Bool
  | .and => false
  | .or => true

/-! ## Expressions -/

variable {σ κ : Type} [HasFields σ] [HasFields κ]

/-- The value of an expression under bindings, with a division that may round. -/
def Expr.evaluateBy (divide : Decimal → Decimal → Option Decimal) (b : Bindings σ κ) :
    Expr → Evaluation Value
  | .literal v => pure v
  | .path p => ⟨[p], b.resolve p⟩
  | .unary op operand => do
    let v ← operand.evaluateBy divide b
    .ofResult (op.apply v)
  | .binary (.arith op) left right => do
    let x ← .ofResult ((Operator.binary (.arith op)).expectDecimal (← left.evaluateBy divide b))
    let y ← .ofResult ((Operator.binary (.arith op)).expectDecimal (← right.evaluateBy divide b))
    .ofResult ((op.applyBy divide x y).map .decimal)
  | .binary (.order op) left right => do
    let x ← .ofResult ((Operator.binary (.order op)).expectDecimal (← left.evaluateBy divide b))
    let y ← .ofResult ((Operator.binary (.order op)).expectDecimal (← right.evaluateBy divide b))
    pure (.bool (op.holds x y))
  | .binary (.equality op) left right => do
    let v ← left.evaluateBy divide b
    let w ← right.evaluateBy divide b
    pure (.bool (op.holds v w))
  | .binary (.logic op) left right => do
    let x ← .ofResult ((Operator.binary (.logic op)).expectBool (← left.evaluateBy divide b))
    if x = op.decider then
      pure (.bool x)
    else do
      let y ← .ofResult ((Operator.binary (.logic op)).expectBool (← right.evaluateBy divide b))
      pure (.bool y)

/-- The value of an expression under bindings. -/
def Expr.evaluate (b : Bindings σ κ) (e : Expr) : Evaluation Value :=
  e.evaluateBy Decimal.roundedQuotient? b

end GuardedMachine
